import Joystream.Store

/-!
# `ContentService`: its state, and `drop`

The service owns one counter, `contentSizeSum`, and reads and writes two stores: the data
directory and the cache index. `freeSpace` is the configured storage limit minus the counter.

`drop` is the one removal path that reconciliation, cleanup, eviction and a failed ingestion
all share. It deletes the file and subtracts the file's size when the file exists, and drops
the object from the cache index in every case.

**Theorem (`drop_removal_algebra`).** Dropping the ids of any list, one after another, gives
the state `dropSet s (· ∈ l)`: the files and index entries of the ids of `l` are gone, and the
counter is down by the bytes those files had. So the result depends on the set of ids only, and
a second `drop` of an id changes nothing.
-/

namespace Joystream

/-- `DEFAULT_CONTENT_TYPE`. -/
def DEFAULT_CONTENT_TYPE : String := "application/octet-stream"

/-- What the service owns (`contentSizeSum`) and the two stores it touches. -/
structure ContentService where
  dataDir : DataDir
  stateCache : StateCache
  contentSizeSum : Int
  deriving DecidableEq

namespace ContentService

/-- `usedSpace`. -/
def usedSpace (s : ContentService) : Int := s.contentSizeSum

/-- `freeSpace`, for the storage limit `config.limits.storage`. -/
def freeSpace (storage : Nat) (s : ContentService) : Int := storage - s.contentSizeSum

/-- `exists`: whether the object's file is in the data directory. -/
def «exists» (s : ContentService) (objectId : ObjectId) : Bool := objectId ∈ s.dataDir

/-- `fileSize`. `fs.statSync` throws on a missing file; every caller asks about a file that
exists, and then this is its size. -/
def fileSize (s : ContentService) (objectId : ObjectId) : Nat := sizeOf s.dataDir objectId

/-- `detectMimeType`, for `fileType`, the MIME type `FileType.fromFile` finds in each file. -/
def detectMimeType (fileType : ObjectId → Option String) (objectId : ObjectId) : String :=
  match fileType objectId with
  | some mime => if mime = "" then DEFAULT_CONTENT_TYPE else mime
  | none => DEFAULT_CONTENT_TYPE

theorem detectMimeType_ne_empty (fileType : ObjectId → Option String) (objectId : ObjectId) :
    detectMimeType fileType objectId ≠ "" := by
  unfold detectMimeType
  split
  · split <;> simp_all [DEFAULT_CONTENT_TYPE]
  · simp [DEFAULT_CONTENT_TYPE]

/-- `drop`. -/
def drop (s : ContentService) (objectId : ObjectId) : ContentService :=
  let s := if s.exists objectId then
      { s with
        dataDir := s.dataDir.erase objectId
        contentSizeSum := s.contentSizeSum - s.fileSize objectId }
    else s
  { s with stateCache := s.stateCache.dropById objectId }

/-! ## What `drop` does -/

@[simp] theorem drop_dataDir (s : ContentService) (a : ObjectId) :
    (s.drop a).dataDir = s.dataDir.erase a := by
  by_cases h : a ∈ s.dataDir <;> simp [drop, «exists», h, erase_of_not_mem]

@[simp] theorem drop_contentSizeSum (s : ContentService) (a : ObjectId) :
    (s.drop a).contentSizeSum = s.contentSizeSum - sizeOf s.dataDir a := by
  by_cases h : a ∈ s.dataDir <;> simp [drop, «exists», fileSize, h, sizeOf_of_not_mem]

@[simp] theorem drop_stateCache (s : ContentService) (a : ObjectId) :
    (s.drop a).stateCache = s.stateCache.dropById a := by
  by_cases h : a ∈ s.dataDir <;> simp [drop, «exists», h]

theorem drop_eq (s : ContentService) (a : ObjectId) :
    s.drop a = ⟨s.dataDir.erase a, s.stateCache.dropById a, s.contentSizeSum - sizeOf s.dataDir a⟩ := by
  rw [← drop_dataDir, ← drop_stateCache, ← drop_contentSizeSum]

/-! ## Many drops -/

/-- `drop` of every id of a list, in order. -/
def dropAll (s : ContentService) (ids : List ObjectId) : ContentService := ids.foldl drop s

/-- Every object that satisfies `p` removed at once: its file, its index entries, its bytes. -/
def dropSet (s : ContentService) (p : ObjectId → Bool) : ContentService where
  dataDir := restrict (fun x => !p x) s.dataDir
  stateCache :=
    { cached := restrict (fun x => !p x) s.stateCache.cached
      mimeTypes := restrict (fun x => !p x) s.stateCache.mimeTypes
      pendingDownloads := s.stateCache.pendingDownloads.filter fun x => !p x }
  contentSizeSum := s.contentSizeSum - sizeSum (restrict p s.dataDir)

theorem dropSet_false (s : ContentService) : s.dropSet (fun _ => false) = s := by
  obtain ⟨d, ⟨c, m, q⟩, n⟩ := s
  have : restrict (fun _ => false) d = ∅ := AList.ext (List.filter_false _)
  simp [dropSet, this]

theorem drop_dropSet (s : ContentService) (p : ObjectId → Bool) (a : ObjectId) :
    (s.dropSet p).drop a = s.dropSet fun x => p x || x = a := by
  have hnot : ∀ {β} (d : Table β), (restrict (fun x => !p x) d).erase a =
      restrict (fun x => !(p x || x = a)) d := fun d => by
    rw [restrict_erase]; exact restrict_congr d fun x _ => by simp
  have hsum : sizeSum (restrict p s.dataDir) + sizeOf (restrict (fun x => !p x) s.dataDir) a =
      sizeSum (restrict (fun x => p x || x = a) s.dataDir) := by
    cases hp : p a
    · rw [sizeSum_restrict_or p _ hp]; simp [hp]
    · have : restrict (fun x => p x || x = a) s.dataDir = restrict p s.dataDir :=
        restrict_congr _ fun x _ => by by_cases h : x = a <;> simp [h, hp]
      simp [this, hp]
  rw [drop_eq]
  simp only [dropSet, StateCache.dropById, hnot, List.filter_filter, ContentService.mk.injEq,
    StateCache.mk.injEq, ← hsum]
  refine ⟨trivial, ⟨trivial, trivial, List.filter_congr fun x _ => by simp [Bool.and_comm]⟩, ?_⟩
  omega

theorem dropAll_eq_dropSet (s : ContentService) (l : List ObjectId) :
    s.dropAll l = s.dropSet fun x => x ∈ l := by
  induction l using List.reverseRecOn with
  | nil => simpa [dropAll] using (dropSet_false s).symm
  | append_singleton l a ih =>
    have : s.dropAll (l ++ [a]) = (s.dropAll l).drop a := by simp [dropAll]
    rw [this, ih, drop_dropSet]
    congr 1
    funext x
    simp

theorem drop_eq_dropSet (s : ContentService) (a : ObjectId) :
    s.drop a = s.dropSet fun x => x = a := by
  have : s.drop a = s.dropAll [a] := rfl
  rw [this, dropAll_eq_dropSet]
  congr 1
  funext x
  simp

theorem drop_drop_self (s : ContentService) (a : ObjectId) : (s.drop a).drop a = s.drop a := by
  rw [drop_eq_dropSet s, drop_dropSet]
  congr 1
  funext x
  simp

/-- Dropping the ids of a list in sequence: only the set of ids matters; their files and index
entries are gone; the counter falls by the bytes those files had; a second `drop` is a no-op. -/
theorem drop_removal_algebra (s : ContentService) (l : List ObjectId) :
    (∀ l' : List ObjectId, (∀ x, x ∈ l' ↔ x ∈ l) → s.dropAll l' = s.dropAll l) ∧
    (s.dropAll l).dataDir = restrict (fun x => x ∉ l) s.dataDir ∧
    (s.dropAll l).stateCache.cached = restrict (fun x => x ∉ l) s.stateCache.cached ∧
    (s.dropAll l).stateCache.mimeTypes = restrict (fun x => x ∉ l) s.stateCache.mimeTypes ∧
    (s.dropAll l).stateCache.pendingDownloads =
      s.stateCache.pendingDownloads.filter (fun x => x ∉ l) ∧
    (s.dropAll l).contentSizeSum = s.contentSizeSum - sizeSum (restrict (fun x => x ∈ l) s.dataDir) ∧
    ∀ a, (s.drop a).drop a = s.drop a := by
  refine ⟨fun l' h => ?_, ?_, ?_, ?_, ?_, ?_, drop_drop_self s⟩
  · simp only [dropAll_eq_dropSet, h]
  all_goals simp [dropAll_eq_dropSet, dropSet]

end ContentService

end Joystream
