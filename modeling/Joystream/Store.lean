import Mathlib

/-!
# The data directory and the cache index

`ContentService` keeps each data object as one file of `config.directories.data`, named by the
object's id. We keep a file's name and its size in bytes, in the order `fs.readdirSync` lists
them: an `AList`, so that no name occurs twice. The bytes themselves are left out; the only
thing read from them is the MIME type, which `FileType` sniffs (a parameter of the model).

The cache index is `StateCacheService`, which the sources use but do not contain. It is modelled
from its interface: the tracked ids that `getCachedObjectsIds` returns change only through
`newContent` and `dropById`; the MIME types are a separate table; the pending downloads a list.
The eviction candidate is the index's policy, of which we only ask that it name a tracked id.

Most of this module is the arithmetic of byte counts over such tables: `sizeSum`, and how it
changes when an entry is erased, inserted, or when the table is cut by a predicate (`restrict`).
-/

namespace Joystream

/-- A data object id; also the file's name in the data directory. -/
abbrev ObjectId := String

/-- A table keyed by object ids with no id twice. -/
abbrev Table (β : Type) := AList fun _ : ObjectId => β

/-- The data directory: each file's name and byte size, in listing order. -/
abbrev DataDir := Table Nat

variable {β : Type}

/-! ## Cutting a table by a predicate -/

/-- The entries of `d` whose id satisfies `p`, in their order. -/
def restrict (p : ObjectId → Bool) (d : Table β) : Table β :=
  ⟨d.entries.filter fun e => p e.1, d.nodupKeys.sublist (List.filter_sublist _)⟩

theorem erase_eq_restrict (d : Table β) (a : ObjectId) :
    d.erase a = restrict (fun x => x ≠ a) d :=
  AList.ext (go d.nodupKeys)
where
  go : ∀ {l : List (Σ _ : ObjectId, β)}, l.NodupKeys →
      l.kerase a = l.filter fun e => decide (e.1 ≠ a)
    | [], _ => rfl
    | s :: l, h => by
      rw [List.nodupKeys_cons] at h
      by_cases hs : a = s.1
      · subst hs
        rw [List.kerase_cons_eq rfl, List.filter_cons, if_neg (by simp)]
        exact (List.filter_eq_self.2 fun e he => by
          have : e.1 ≠ s.1 := fun h' => h.1 (h' ▸ List.mem_keys_of_mem he)
          simpa using this).symm
      · rw [List.kerase_cons_ne hs, List.filter_cons, if_pos (by simpa using Ne.symm hs), go h.2]

theorem erase_of_not_mem {d : Table β} {a : ObjectId} (h : a ∉ d) : d.erase a = d :=
  AList.ext (List.kerase_of_not_mem_keys h)

@[simp] theorem restrict_restrict (p q : ObjectId → Bool) (d : Table β) :
    restrict p (restrict q d) = restrict (fun x => q x && p x) d :=
  AList.ext (by simp [restrict, List.filter_filter, Bool.and_comm])

theorem restrict_erase (p : ObjectId → Bool) (d : Table β) (a : ObjectId) :
    (restrict p d).erase a = restrict (fun x => p x && x ≠ a) d := by
  rw [erase_eq_restrict, restrict_restrict]

@[simp] theorem restrict_true (d : Table β) : restrict (fun _ => true) d = d :=
  AList.ext (List.filter_true _)

theorem restrict_congr {p q : ObjectId → Bool} (d : Table β) (h : ∀ x ∈ d, p x = q x) :
    restrict p d = restrict q d :=
  AList.ext (List.filter_congr fun e he => h e.1 (List.mem_keys_of_mem he))

@[simp] theorem lookup_restrict (p : ObjectId → Bool) (d : Table β) (a : ObjectId) :
    (restrict p d).lookup a = if p a then d.lookup a else none := by
  obtain ⟨l, hl⟩ := d
  simp only [restrict, AList.lookup]
  induction l with
  | nil => simp
  | cons s l ih =>
    obtain ⟨k, v⟩ := s
    rw [List.nodupKeys_cons] at hl
    by_cases hk : a = k
    · subst hk
      by_cases hp : p a <;> simp [hp, List.dlookup_cons_eq, ih hl.2, List.dlookup_eq_none.2 hl.1]
    · by_cases hp : p k <;> simp [hp, List.dlookup_cons_ne _ (⟨k, v⟩ : Σ _ : ObjectId, β) hk, ih hl.2]

@[simp] theorem mem_restrict {p : ObjectId → Bool} {d : Table β} {a : ObjectId} :
    a ∈ restrict p d ↔ p a ∧ a ∈ d := by
  rw [← AList.lookup_isSome, ← AList.lookup_isSome, lookup_restrict]
  by_cases hp : p a <;> simp [hp]

theorem mem_of_lookup_eq_some {d : Table β} {a : ObjectId} {b : β} (h : d.lookup a = some b) :
    a ∈ d :=
  AList.lookup_isSome.1 (by simp [h])

theorem keys_length_erase_lt {d : Table β} {a : ObjectId} (h : a ∈ d) :
    (d.erase a).keys.length < d.keys.length := by
  rw [AList.keys_erase, List.length_erase_of_mem (AList.mem_keys.1 h)]
  exact Nat.pred_lt (List.ne_nil_of_mem (AList.mem_keys.1 h) ∘ List.length_eq_zero.1)

/-! ## Sums over a table -/

section Sums

variable {M : Type} [AddCommMonoid M]

/-- The sum of `f` over the entries of a table. -/
def tableSum (f : β → M) (d : Table β) : M := (d.entries.map fun e => f e.2).sum

/-- `f` of the entry of `a`, zero when there is none. -/
def tableAt (f : β → M) (d : Table β) (a : ObjectId) : M := ((d.lookup a).map f).getD 0

theorem tableAt_of_lookup {f : β → M} {d : Table β} {a : ObjectId} {b : β}
    (h : d.lookup a = some b) : tableAt f d a = f b := by
  simp [tableAt, h]

theorem tableAt_of_not_mem {f : β → M} {d : Table β} {a : ObjectId} (h : a ∉ d) :
    tableAt f d a = 0 := by
  simp [tableAt, AList.lookup_eq_none.2 h]

/-- Erasing an entry takes exactly its part off the sum. -/
theorem tableSum_erase (f : β → M) (d : Table β) (a : ObjectId) :
    tableSum f (d.erase a) + tableAt f d a = tableSum f d := by
  obtain ⟨l, hl⟩ := d
  simp only [tableSum, tableAt, AList.erase, AList.lookup]
  clear hl
  induction l with
  | nil => simp
  | cons s l ih =>
    obtain ⟨k, v⟩ := s
    by_cases hs : a = k
    · subst hs
      simp [List.kerase_cons_eq rfl, List.dlookup_cons_eq, add_comm]
    · simp only [List.kerase_cons_ne (s := (⟨k, v⟩ : Σ _ : ObjectId, β)) hs,
        List.dlookup_cons_ne _ (⟨k, v⟩ : Σ _ : ObjectId, β) hs, List.map_cons, List.sum_cons]
      rw [add_assoc, ih]

/-- Inserting replaces the entry's old part of the sum by the new one. -/
theorem tableSum_insert (f : β → M) (d : Table β) (a : ObjectId) (b : β) :
    tableSum f (d.insert a b) + tableAt f d a = tableSum f d + f b := by
  have : tableSum f (d.insert a b) = f b + tableSum f (d.erase a) := by
    simp [tableSum, AList.insert_entries, AList.erase]
  rw [this, ← tableSum_erase f d a]
  abel

/-- A table is the sum of its part that satisfies `p` and the part that does not. -/
theorem tableSum_restrict_add (f : β → M) (p : ObjectId → Bool) (d : Table β) :
    tableSum f (restrict p d) + tableSum f (restrict (fun x => !p x) d) = tableSum f d := by
  have := List.sum_map_filter_add_sum_map_filter_not (fun e : Σ _ : ObjectId, β => p e.1 = true)
    (fun e => f e.2) d.entries
  simpa [tableSum, restrict] using this

end Sums

theorem tableSum_nonneg {f : β → Int} {d : Table β} (h : ∀ a b, d.lookup a = some b → 0 ≤ f b) :
    0 ≤ tableSum f d :=
  List.sum_nonneg fun x hx => by
    obtain ⟨e, he, rfl⟩ := List.mem_map.1 hx
    exact h e.1 e.2 (AList.mem_lookup_iff.2 he)

/-! ## Byte counts -/

/-- The bytes of all entries of a size table. -/
def sizeSum (d : Table Nat) : Nat := tableSum id d

/-- The size recorded for `a`, zero when there is none. -/
def sizeOf (d : Table Nat) (a : ObjectId) : Nat := (d.lookup a).getD 0

@[simp] theorem sizeSum_empty : sizeSum ∅ = 0 := rfl

theorem tableAt_id (d : Table Nat) (a : ObjectId) : tableAt id d a = sizeOf d a := by
  simp [tableAt, sizeOf]

theorem sizeOf_of_not_mem {d : Table Nat} {a : ObjectId} (h : a ∉ d) : sizeOf d a = 0 := by
  simp [sizeOf, AList.lookup_eq_none.2 h]

@[simp] theorem sizeOf_erase_self (d : Table Nat) (a : ObjectId) : sizeOf (d.erase a) a = 0 := by
  simp [sizeOf, AList.lookup_erase]

@[simp] theorem sizeOf_erase_ne {d : Table Nat} {a b : ObjectId} (h : b ≠ a) :
    sizeOf (d.erase a) b = sizeOf d b := by
  simp [sizeOf, AList.lookup_erase_ne h]

@[simp] theorem sizeOf_insert_self (d : Table Nat) (a : ObjectId) (n : Nat) :
    sizeOf (d.insert a n) a = n := by
  simp [sizeOf, AList.lookup_insert]

@[simp] theorem sizeOf_insert_ne {d : Table Nat} {a b : ObjectId} {n : Nat} (h : b ≠ a) :
    sizeOf (d.insert a n) b = sizeOf d b := by
  simp [sizeOf, AList.lookup_insert_ne h]

@[simp] theorem sizeOf_restrict (p : ObjectId → Bool) (d : Table Nat) (a : ObjectId) :
    sizeOf (restrict p d) a = if p a then sizeOf d a else 0 := by
  by_cases hp : p a <;> simp [sizeOf, hp]

theorem sizeSum_restrict_add (p : ObjectId → Bool) (d : Table Nat) :
    sizeSum (restrict p d) + sizeSum (restrict (fun x => !p x) d) = sizeSum d :=
  tableSum_restrict_add id p d

theorem sizeSum_erase (d : Table Nat) (a : ObjectId) :
    sizeSum (d.erase a) + sizeOf d a = sizeSum d := by
  rw [← tableAt_id]; exact tableSum_erase id d a

theorem sizeSum_insert (d : Table Nat) (a : ObjectId) (n : Nat) :
    sizeSum (d.insert a n) + sizeOf d a = sizeSum d + n := by
  rw [← tableAt_id]; exact tableSum_insert id d a n

/-- Adding one id to a predicate adds that entry's bytes to the restricted sum. -/
theorem sizeSum_restrict_or (p : ObjectId → Bool) (d : Table Nat) {a : ObjectId} (ha : p a = false) :
    sizeSum (restrict (fun x => p x || x = a) d) = sizeSum (restrict p d) + sizeOf d a := by
  have h1 := sizeSum_restrict_add p d
  have h2 := sizeSum_restrict_add (fun x => p x || x = a) d
  have h3 := sizeSum_erase (restrict (fun x => !p x) d) a
  rw [restrict_erase, sizeOf_restrict] at h3
  have h4 : restrict (fun x => (!p x) && x ≠ a) d = restrict (fun x => !(p x || x = a)) d :=
    restrict_congr d fun x _ => by simp
  simp only [ha, Bool.not_false, if_true, h4] at h3
  omega

/-! ## The cache index -/

/-- Modelled from the spec: the cache index `StateCacheService`, missing from the sources. The
objects it holds, with the size `newContent` was given; the MIME type of each object; the ids
of pending downloads. -/
structure StateCache where
  cached : Table Nat
  mimeTypes : Table String
  pendingDownloads : List ObjectId
  deriving DecidableEq

namespace StateCache

/-- Modelled from the spec: the ids the index holds. -/
def getCachedObjectsIds (c : StateCache) : List ObjectId := c.cached.keys

/-- Modelled from the spec: start holding a committed object. -/
def newContent (c : StateCache) (objectId : ObjectId) (sizeInBytes : Nat) : StateCache :=
  { c with cached := c.cached.insert objectId sizeInBytes }

/-- Modelled from the spec: forget everything the index knows about an object. -/
def dropById (c : StateCache) (objectId : ObjectId) : StateCache :=
  { cached := c.cached.erase objectId
    mimeTypes := c.mimeTypes.erase objectId
    pendingDownloads := c.pendingDownloads.filter (· ≠ objectId) }

/-- Modelled from the spec. -/
def getContentMimeType (c : StateCache) (objectId : ObjectId) : Option String :=
  c.mimeTypes.lookup objectId

/-- Modelled from the spec. -/
def setContentMimeType (c : StateCache) (objectId : ObjectId) (mimeType : String) : StateCache :=
  { c with mimeTypes := c.mimeTypes.insert objectId mimeType }

/-- Modelled from the spec: the object is no longer a pending download. -/
def dropPendingDownload (c : StateCache) (objectId : ObjectId) : StateCache :=
  { c with pendingDownloads := c.pendingDownloads.filter (· ≠ objectId) }

@[simp] theorem dropById_cached (c : StateCache) (a : ObjectId) :
    (c.dropById a).cached = c.cached.erase a := rfl

@[simp] theorem dropById_mimeTypes (c : StateCache) (a : ObjectId) :
    (c.dropById a).mimeTypes = c.mimeTypes.erase a := rfl

@[simp] theorem newContent_cached (c : StateCache) (a : ObjectId) (n : Nat) :
    (c.newContent a n).cached = c.cached.insert a n := rfl

@[simp] theorem setContentMimeType_cached (c : StateCache) (a : ObjectId) (m : String) :
    (c.setContentMimeType a m).cached = c.cached := rfl

@[simp] theorem dropPendingDownload_cached (c : StateCache) (a : ObjectId) :
    (c.dropPendingDownload a).cached = c.cached := rfl

end StateCache

/-- Modelled from the spec: the eviction policy behind `getCacheEvictCandidateObjectId`. It may
choose any way it likes, but only among the objects the index holds. -/
structure EvictionPolicy where
  getCacheEvictCandidateObjectId : StateCache → Option ObjectId
  candidate_mem : ∀ c a, getCacheEvictCandidateObjectId c = some a → a ∈ c.cached

/-- What `fetchSupportedDataObjects` returns: every object the node should hold, with its
expected size (the only field of the chain's data object the service reads). -/
abbrev SupportedObjects := Table Nat

end Joystream
