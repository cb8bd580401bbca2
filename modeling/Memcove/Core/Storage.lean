import Memcove.Arrow
import Memcove.Core.Settings

/-!
# Object storage

`core/storage.py`: how a configured location and its parts become a bucket and a key, how an
`s3://` URI is read, and the calls to the object store that the ingest paths make. What the store
answers is not part of the repository.
-/

namespace Memcove

/-- The S3 client with `pyarrow.parquet`: the `ContentLength` of a HEAD request, the table in a
parquet object, and a presigned PUT URL with its lifetime. -/
class ObjectStore where
  contentLength : String → String → PyM Int
  parquet : String → String → PyM ArrowTable
  presignPut : String → String → Int → PyM String

/-- `storage.resolve`. -/
def resolve (location : String) (parts : List String) : String × String :=
  let (bucket, subPath) := partitionChar '/' (stripChar '/' location)
  let segments := (if subPath = "" then [] else [stripChar '/' subPath]) ++
    (parts.filter (· != "")).map (stripChar '/')
  (bucket, "/".intercalate segments)

/-- `storage._split`. -/
def splitUri [Python] (uriOrBucket : String) (key : Option String) : PyM (String × String) :=
  match key with
  | some key => .ok (uriOrBucket, key)
  | none =>
    if !startsWith uriOrBucket "s3://" then
      raise .valueError s!"expected an s3:// uri, got {Python.repr uriOrBucket}"
    else
      let (bucket, key) := partitionChar '/' (String.ofList (uriOrBucket.toList.drop 5))
      if key = "" then raise .valueError s!"s3 uri is missing a key: {Python.repr uriOrBucket}"
      else .ok (bucket, key)

section

variable [Python] [ObjectStore]

/-- `storage.object_size`. -/
def objectSize (uriOrBucket : String) (key : Option String) : PyM Int := do
  let (bucket, key) ← splitUri uriOrBucket key
  ObjectStore.contentLength bucket key

/-- `storage.read_parquet_table`. -/
def readParquetTable (uriOrBucket : String) (key : Option String) : PyM ArrowTable := do
  let (bucket, key) ← splitUri uriOrBucket key
  ObjectStore.parquet bucket key

/-- `storage.presign_put`. -/
def presignPut (settings : Settings) (bucket key : String) : PyM String :=
  ObjectStore.presignPut bucket key settings.presignTtlSeconds

end

/-- A text without slashes is its own `strip("/")`. -/
theorem stripChar_eq_self {c : Char} {s : String} (h : c ∉ s.toList) : stripChar c s = s := by
  rw [stripChar, stripChars_eq_self, String.ofList_toList]
  intro d hd
  simpa using ne_of_mem_of_not_mem hd h

/-- A text is put together again from its two parts, unless the second one is empty. -/
theorem partitionChar_toList {c : Char} {s : String} (h : (partitionChar c s).2 ≠ "") :
    c ∉ (partitionChar c s).1.toList ∧
      s.toList = (partitionChar c s).1.toList ++ c :: (partitionChar c s).2.toList := by
  rw [partitionChar] at h ⊢
  simp only [String.toList_ofList] at h ⊢
  have hbefore : c ∉ s.toList.takeWhile (· != c) := by
    intro hc
    simpa using List.mem_takeWhile_imp hc
  have hsplit := (s.toList.takeWhile_append_dropWhile (p := (· != c))).symm
  cases hafter : s.toList.dropWhile (· != c) with
  | nil => simp [hafter] at h
  | cons d rest =>
    have hhead := List.head?_dropWhile_not (· != c) s.toList
    rw [hafter] at hhead hsplit
    have hd : d = c := by simpa using hhead
    subst hd
    exact ⟨hbefore, hsplit⟩

end Memcove
