/-!
# Settings

What can be set about the controller.
-/

namespace ClusterBackup

/-- What a setting is set to: a text, or nothing, where an option is there without anything in
it. -/
inductive Setting where
  | text (s : String)
  | nothing
deriving DecidableEq

/-- The settings of a controller: the namespace to watch, all of them if it is empty; the delay
after which a backup is looked at again; how often a claim is checked; the name of the claim; how
often a job is tried again; for how long a watch lasts; and the level of the log. -/
structure Settings (τ : Type) where
  ns : Setting
  requeueAfter : τ
  bindAttempts : Int
  claimName : String
  jobBackoffLimit : Int
  watchSeconds : Int
  logLevel : Setting
deriving DecidableEq

namespace Settings

def usual {τ : Type} [NatCast τ] : Settings τ where
  ns := .text ""
  requeueAfter := ((5 : Nat) : τ)
  bindAttempts := 5
  claimName := "cluster1-xb-cron-pvc"
  jobBackoffLimit := 0
  watchSeconds := 300
  logLevel := .text "INFO"

end Settings

end ClusterBackup
