import Fulfilment.Blob.Basic
import Fulfilment.Http.Form

/-!
# Files kept by another service

A file is fetched in chunks, after its size was announced or not, and reading stops where it is known to be too large,
or where no more of it comes. Of a failure only the beginning is told here, and not what the client says of the cause.

* `Transfer.next`: a transfer, one chunk further.
* `Download.receive`: the file that a download is.
* `BlobService.fetch`, `BlobService.store`, `BlobService.contains`: the requests and what their answers mean.
-/

namespace Fulfilment

/-- A file that is about to be sent. -/
structure Download where
  /-- The size that was announced. -/
  announced : Option Nat
  chunks : List Bytes
  /-- Whether the connection breaks off behind these chunks. -/
  broken : Bool
  deriving DecidableEq, Repr

/-- A file on its way: what was received of it, and the chunks that were not asked for yet. -/
structure Transfer where
  received : Bytes
  coming : List Bytes
  deriving DecidableEq, Repr

namespace Transfer

/-- What becomes of a transfer when the next chunk is asked for. -/
inductive Turn
  | more (t : Transfer)
  /-- With the next chunk the file is too large. -/
  | tooMuch
  | complete
  deriving DecidableEq, Repr

def next (limit : Nat) (t : Transfer) : Turn :=
  match t.coming with
  | [] => .complete
  | chunk :: rest =>
    if limit < t.received.length + chunk.length then .tooMuch else .more ⟨t.received ++ chunk, rest⟩

theorem length_coming_next {limit : Nat} {t t' : Transfer} (h : t.next limit = .more t') :
    t'.coming.length < t.coming.length := by
  unfold next at h
  split at h
  · cases h
  · rename_i hcoming
    split at h <;> cases h
    rw [hcoming]
    exact Nat.lt_succ_self _

/-- Asks for one chunk after the other, until there is none or one too many. -/
def run (tooMuch : Failure) (limit : Nat) (t : Transfer) : Except Failure Bytes :=
  match _h : t.next limit with
  | .more t' => run tooMuch limit t'
  | .tooMuch => .error tooMuch
  | .complete => .ok t.received
  termination_by t.coming.length
  decreasing_by exact length_coming_next _h

end Transfer

/-- The failure to do something with a file. -/
def BlobService.failedTo (what bucket key : String) : Failure := .ofMessage s!"Failed to {what} s3://{bucket}/{key}"

namespace Download

/-- The file, if all of it comes and it is not larger than `limit`. -/
def receive (bucket key : String) (limit : Nat) (d : Download) : Except Failure Bytes :=
  if d.announced.any (limit < ·) then .error (tooLarge bucket key limit)
  else
    match Transfer.run (tooLarge bucket key limit) limit ⟨[], d.chunks⟩ with
    | .error f => .error f
    | .ok file => if d.broken then .error (BlobService.failedTo "read" bucket key) else .ok file

end Download

namespace BlobService

structure Request where
  method : String
  path : String
  /-- What is stored, and as what. -/
  content : Option (Bytes × String)
  deriving DecidableEq

/-- What becomes of a request. -/
inductive Reply
  | answered (status : Nat) (download : Download)
  | unanswered
  deriving DecidableEq, Repr

/-- Whether a request has succeeded. -/
def isSuccess (status : Nat) : Bool := 200 ≤ status && status < 300

/-- What stands as itself in a key. -/
def isPlain (b : UInt8) : Bool :=
  (48 ≤ b && b ≤ 57) || (65 ≤ b && b ≤ 90) || (97 ≤ b && b ≤ 122) || b == 45 || b == 46 || b == 95 || b == 126 ||
    b == 47

/-- A key as it is written in a path. -/
def escapeKey (key : String) : String :=
  let bytes := (Utf8.ofString key).flatMap fun b => if isPlain b then [b] else Form.percent b
  String.ofList (bytes.map fun b => Char.ofNat b.toNat)

def path (bucket key : String) : String := s!"/{bucket}/{escapeKey key}"

variable {m : Type → Type} [Monad m]

def fetch (send : Request → m Reply) (bucket key : String) (limit : Nat) : m (Except Failure Bytes) := do
  match ← send ⟨"GET", path bucket key, none⟩ with
  | .answered status download =>
    return if isSuccess status then download.receive bucket key limit else .error (failedTo "fetch" bucket key)
  | .unanswered => return .error (failedTo "fetch" bucket key)

def store (send : Request → m Reply) (b : Blob) : m (Except Failure Unit) := do
  match ← send ⟨"PUT", path b.bucket b.key, some (b.body, "text/csv")⟩ with
  | .answered status _ => return if isSuccess status then .ok () else .error (failedTo "write" b.bucket b.key)
  | .unanswered => return .error (failedTo "write" b.bucket b.key)

/-- Whether there is such a file. -/
def contains (send : Request → m Reply) (bucket key : String) : m (Except Failure Bool) := do
  match ← send ⟨"HEAD", path bucket key, none⟩ with
  | .answered status _ =>
    return if isSuccess status then .ok true
      else if status = 404 then .ok false
      else .error (failedTo "check" bucket key)
  | .unanswered => return .error (failedTo "check" bucket key)

end BlobService

end Fulfilment
