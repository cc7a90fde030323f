import ClusterBackup.Json.Equality
/-!
# Buckets

A place in object storage, as the API describes it.
-/

namespace ClusterBackup

/-- A bucket and the secret that opens it. The region and the endpoint are null where they are not
given. -/
structure Bucket where
  name : Json
  credentials : Json
  region : Json
  endpoint : Json
deriving DecidableEq

namespace Bucket

def ofJson (raw : Json) : Except Malformed Bucket := do
  return {
    name := (← raw.member "bucket").orBlank
    credentials := (← raw.member "credentialsSecret").orBlank
    region := ← raw.member "region"
    endpoint := ← raw.member "endpointUrl" }

def toJson (b : Bucket) : Json :=
  .obj ([("bucket", b.name), ("credentialsSecret", b.credentials), ("region", b.region),
    ("endpointUrl", b.endpoint)].filter fun m => !m.2.isNull)

def same (a b : Bucket) : Bool :=
  a.name.same b.name && a.credentials.same b.credentials && a.region.same b.region &&
    a.endpoint.same b.endpoint

end Bucket

end ClusterBackup
