import Fulfilment.Failure
import Fulfilment.Text.Utf8

/-!
# Files

Files lie in buckets under keys. One that is larger than its reader allows is not read.
-/

namespace Fulfilment

/-- A file in a bucket. -/
structure Blob where
  bucket : String
  key : String
  body : Bytes
  deriving DecidableEq

/-- The failure of a file of more than `limit` bytes. -/
def tooLarge (bucket key : String) (limit : Nat) : Failure :=
  .ofMessage s!"s3://{bucket}/{key} is larger than the {limit} byte limit"

end Fulfilment
