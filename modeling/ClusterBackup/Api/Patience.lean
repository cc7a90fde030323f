/-!
# Time limits of calls

Every call is given up after the same number of seconds, which has to be positive.
-/

namespace ClusterBackup.Api

structure Patience where
  seconds : Int
  positive : 0 < seconds
deriving DecidableEq

namespace Patience

def usual : Patience := ⟨20, by decide⟩

def notPositive : String := "request_timeout_seconds must be positive"

def of? (seconds : Int) : Except String Patience :=
  if h : 0 < seconds then .ok ⟨seconds, h⟩ else .error notPositive

end Patience

end ClusterBackup.Api
