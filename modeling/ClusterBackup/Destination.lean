import ClusterBackup.Backup
import ClusterBackup.Cluster
/-!
# Destinations

Where a backup is written: onto a volume claim or into a bucket.
-/

namespace ClusterBackup

/-- Where a backup is written: the address that is recorded, and the claim or the bucket behind
it. -/
structure Destination where
  address : String
  claim : Option String
  bucket : Option Bucket
deriving DecidableEq

namespace Destination

def claimScheme : String := "pvc/"

def bucketScheme : String := "s3://"

/-- The address under which a cluster's backup of a given time goes into a bucket. The scheme is
put in front unless the name of the bucket has it already. -/
def bucketAddress (bucket cluster : String) (createdAt : Timestamp) : String :=
  let path := bucket ++ "/" ++ cluster ++ "-" ++ createdAt.stampText ++ "-xtrabackup.stream"
  if bucketScheme.toList.isPrefixOf bucket.toList then path else bucketScheme ++ path

def bucketAddressOf (bucket cluster : Json) (createdAt : Timestamp) : Except Malformed String :=
  match bucket with
  | .str name => .ok (bucketAddress name cluster.text createdAt)
  | _ => .error .noMembers

def onClaim (claim : String) : Destination := ⟨claimScheme ++ claim, some claim, none⟩

end Destination

end ClusterBackup
