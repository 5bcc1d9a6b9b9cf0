import Joystream.Interleaving

/-!
# Reservations against the storage limit

`handleNewContent` compares `freeSpace` with `expectedSize` and, when that is short, awaits the
eviction before it reserves. The `await` yields even when the eviction finished at once, so a
second call can start in between, find the space the eviction freed, and reserve it first. The
first call then reserves too, against space that is no longer free.

**Theorem (`concurrent_reservations_overcommit`).** With a storage limit of 10 bytes and one
tracked file of 6, a call for 6 bytes evicts that file; a second call for 6 bytes starts before
the first resumes and reserves at once; the first then reserves, and `freeSpace` is `-2`.

**Theorem (`timers_keep_waiting`).** A call short of room while the index tracks nothing waits
on every timer, and nothing changes: the wait never ends by itself.

**Theorem (`serial_reservation_within_storage`).** When a new call starts only once every call
in flight has reserved, the serialisation of evictions the spec asks for, every reservation
leaves `freeSpace ≥ 0`. The proof is an invariant (`Serial`): at most one call is before its
reservation, and a call whose eviction is over finds the room it needs.

**Theorem (`serial_freeSpace_nonneg`).** Serialised calls from a reconciled service within the
storage limit keep `freeSpace ≥ 0` at every node of every run, not only at reservations: every
other stretch leaves the counter as it was or lowers it.

**Theorem (`disk_within_storage`).** When moreover no source sends more than its caller declared,
the counter covers the bytes on disk at every node, so the data directory never holds more than
the storage limit. The proof carries, with `Serial`, the accounting gap of the interleaving
model: a failed call can only leak, never owe, while every file stays within its reservation.
Without that hypothesis the bound fails, since the chunk that trips the overflow guard is handed to
the file stream before the guard runs, and the file stream can still write it.
-/

namespace Joystream

namespace Node

variable {policy : EvictionPolicy} {storage : Nat} {fileType : ObjectId → Option String}

/-! ## Which stretches reserve -/

variable (storage) in
/-- Whether the event runs `contentSizeSum += expectedSize`: a call that finds room at once, or a
call resuming after its eviction. -/
def reserves (n : Node) : Event → Bool
  | .handleNewContent _ expectedSize => !decide (n.service.freeSpace storage < expectedSize)
  | .resume _ => true
  | _ => false

theorem dropSet_contentSizeSum_le (s : ContentService) (p : ObjectId → Bool) :
    (s.dropSet p).contentSizeSum ≤ s.contentSizeSum := by
  simp only [ContentService.dropSet]
  omega

theorem evictFor_contentSizeSum_le (s : ContentService) (e : Nat) :
    (s.evictFor policy storage e).1.contentSizeSum ≤ s.contentSizeSum := by
  obtain ⟨p, -, he⟩ := s.evictFor_eq_dropSet policy storage e
  rw [he]
  exact dropSet_contentSizeSum_le _ _

theorem contentSizeSum_step_le {n n' : Node} {ev : Event} (hr : n.reserves storage ev = false)
    (h : n.step policy storage fileType ev = some n') :
    n'.service.contentSizeSum ≤ n.service.contentSizeSum := by
  cases ev with
  | handleNewContent a e =>
    obtain ⟨-, -, rfl⟩ := step_handleNewContent h
    simp only [reserves, Bool.not_eq_false', decide_eq_true_eq] at hr
    simp only [ContentService.handleNewContent, if_pos hr]
    exact evictFor_contentSizeSum_le _ _
  | timer a =>
    obtain ⟨e, -, rfl⟩ := step_timer h
    exact evictFor_contentSizeSum_le _ _
  | resume a => cases hr
  | source a ev =>
    obtain ⟨e, r, q, w, -, rfl⟩ := step_source h
    exact le_refl _
  | written a =>
    obtain ⟨e, ph, s', ph', -, hw, rfl⟩ := step_written h
    obtain ⟨w, k, rfl, -⟩ := Ingestion.written_writeNext hw e
    exact le_refl _
  | callback a =>
    obtain ⟨e, err, r, q, w, -, -, ⟨rfl, rfl, rfl, rfl⟩ | ⟨-, rfl⟩⟩ := step_callback h
    · exact le_refl _
    · simp
  | mimeDetected a =>
    obtain ⟨e, -, rfl⟩ := step_mimeDetected h
    exact le_refl _
  | drop a =>
    obtain ⟨-, rfl⟩ := step_drop h
    simp
  | cacheCleanup S =>
    rw [step_cacheCleanup h, ContentService.cacheCleanup_eq_dropSet]
    exact dropSet_contentSizeSum_le _ _

/-! ## Two calls racing for the space one eviction freed -/

theorem race_first_call_evicts :
    (started (fun _ => none) (AList.singleton "x" 6)
        ⟨AList.singleton "x" 6, ⟨AList.singleton "x" 6, ∅, []⟩, 0⟩).step
        ContentService.firstCached 10 (fun _ => none) (.handleNewContent "a" 6) =
      some ⟨(ContentService.startupInit (fun _ => none) (AList.singleton "x" 6)
          ⟨AList.singleton "x" 6, ⟨AList.singleton "x" 6, ∅, []⟩, 0⟩).drop "x",
        (∅ : Table Ingestion).insert "a" ⟨6, .evicted⟩⟩ := by
  have hev : ContentService.evictCacheUntilFreeSpaceReached ContentService.firstCached 10
      ((6 : Nat) : Int) (ContentService.startupInit (fun _ => none) (AList.singleton "x" 6)
        ⟨AList.singleton "x" 6, ⟨AList.singleton "x" 6, ∅, []⟩, 0⟩) =
      ⟨(ContentService.startupInit (fun _ => none) (AList.singleton "x" 6)
        ⟨AList.singleton "x" 6, ⟨AList.singleton "x" 6, ∅, []⟩, 0⟩).drop "x", ["x"], false⟩ := by
    rw [ContentService.evict_of_some (a := "x") (by decide) (by decide),
      ContentService.evict_of_ge (by decide)]
  simp only [step, started, ContentService.handleNewContent, ContentService.evictFor, hev,
    Bool.false_eq_true, if_false]
  rw [if_neg (by decide), if_pos (by decide)]

/-- The second call starts while the first is between its eviction and its reservation; both
reserve, and the counter passes the limit. -/
theorem concurrent_reservations_overcommit :
    ((started (fun _ => none) (AList.singleton "x" 6)
        ⟨AList.singleton "x" 6, ⟨AList.singleton "x" 6, ∅, []⟩, 0⟩).run
        ContentService.firstCached 10 (fun _ => none)
      [.handleNewContent "a" 6, .handleNewContent "b" 6, .resume "a"]).map
        (fun n => n.service.freeSpace 10) = some (-2) := by
  simp only [run, race_first_call_evicts, Option.some_bind]
  decide

/-! ## A call that waits -/

theorem step_timer_of_untracked {n : Node} {a : ObjectId} {e : Nat}
    (hl : n.ingestions.lookup a = some ⟨e, .evicting⟩) (hc : n.service.stateCache.cached = ∅)
    (hlt : n.service.freeSpace storage < e) :
    n.step policy storage fileType (.timer a) =
      some ⟨n.service, n.ingestions.insert a ⟨e, .evicting⟩⟩ := by
  have hnone : policy.getCacheEvictCandidateObjectId n.service.stateCache = none :=
    Option.eq_none_iff_forall_not_mem.2 fun x hx =>
      AList.not_mem_empty x (hc ▸ policy.candidate_mem _ x hx)
  simp [step, hl, ContentService.evictFor, ContentService.evict_of_none hlt hnone]

/-- A call short of room while the index tracks nothing stays waiting, whatever the number of
timers, and the service does not change. -/
theorem timers_keep_waiting {n : Node} {a : ObjectId} {e : Nat}
    (hl : n.ingestions.lookup a = some ⟨e, .evicting⟩) (hc : n.service.stateCache.cached = ∅)
    (hlt : n.service.freeSpace storage < e) (k : Nat) :
    n.run policy storage fileType (List.replicate (k + 1) (.timer a)) =
      some ⟨n.service, n.ingestions.insert a ⟨e, .evicting⟩⟩ := by
  induction k with
  | zero => simp [run, step_timer_of_untracked hl hc hlt]
  | succ k ih =>
    have hstep := @step_timer_of_untracked policy storage fileType
      ⟨n.service, n.ingestions.insert a ⟨e, .evicting⟩⟩ a e (AList.lookup_insert _) hc hlt
    rw [List.replicate_succ', run_append, ih]
    simp [run, hstep]

theorem timers_keep_waiting_three :
    ((∅ : Table Ingestion).insert "a" ⟨6, .evicting⟩).lookup "a" = some ⟨6, .evicting⟩ ∧
    (⟨∅, ∅, []⟩ : StateCache).cached = ∅ ∧
    (⟨∅, ⟨∅, ∅, []⟩, 8⟩ : ContentService).freeSpace 10 < (6 : Nat) ∧
    (⟨⟨∅, ⟨∅, ∅, []⟩, 8⟩, (∅ : Table Ingestion).insert "a" ⟨6, .evicting⟩⟩ : Node).run
        ContentService.firstCached 10 (fun _ => none) (List.replicate (2 + 1) (.timer "a")) =
      some ⟨⟨∅, ⟨∅, ∅, []⟩, 8⟩,
        ((∅ : Table Ingestion).insert "a" ⟨6, .evicting⟩).insert "a" ⟨6, .evicting⟩⟩ :=
  ⟨AList.lookup_insert _, rfl, by decide, timers_keep_waiting (AList.lookup_insert _) rfl (by decide) 2⟩

/-! ## Serialised calls -/

/-- The spec's serialisation of evictions: a new call starts only once every call in flight has
reserved. -/
def admits (n : Node) : Event → Bool
  | .handleNewContent _ _ => n.ingestions.entries.all fun t => t.2.written.isSome
  | _ => true

theorem admits_handleNewContent {n : Node} {a : ObjectId} {e : Nat}
    (h : n.admits (.handleNewContent a e)) {b : ObjectId} {t : Ingestion}
    (hb : n.ingestions.lookup b = some t) : t.written ≠ none := by
  simp only [admits, List.all_eq_true] at h
  simpa [Option.isSome_iff_ne_none] using h _ (AList.mem_lookup_iff.1 hb)

variable (policy storage fileType) in
/-- The nodes a run of serialised calls reaches from `n₀`. -/
abbrev SerialReachable (n₀ n : Node) : Prop :=
  ReachableBy policy storage fileType (fun n ev => n.admits ev) n₀ n

variable (storage) in
/-- What every node reached by serialised calls keeps. -/
structure Serial (n : Node) : Prop where
  /-- At most one call is before its reservation. -/
  single : ∀ a b t u, n.ingestions.lookup a = some t → n.ingestions.lookup b = some u →
    t.written = none → u.written = none → a = b
  /-- A call whose eviction is over has the room it needs. -/
  room : ∀ a e, n.ingestions.lookup a = some ⟨e, .evicted⟩ → (e : Int) ≤ n.service.freeSpace storage

theorem Serial.mono {n n' : Node} (h : Serial storage n)
    (hc : n'.service.contentSizeSum ≤ n.service.contentSizeSum)
    (hi : ∀ a t, n'.ingestions.lookup a = some t → t.written = none → n.ingestions.lookup a = some t) :
    Serial storage n' := by
  refine ⟨fun a b t u ha hb hta hub => h.single a b t u (hi a t ha hta) (hi b u hb hub) hta hub,
    fun a e ha => ?_⟩
  have := h.room a e (hi a _ ha rfl)
  simp only [ContentService.freeSpace] at this ⊢
  omega

theorem lookup_insert_of_written {d : Table Ingestion} {a b : ObjectId} {t u : Ingestion}
    (ht : t.written ≠ none) (hb : (d.insert a t).lookup b = some u) (hu : u.written = none) :
    d.lookup b = some u := by
  by_cases hba : b = a
  · subst hba
    rw [AList.lookup_insert, Option.some.injEq] at hb
    exact absurd (hb ▸ hu) ht
  · rwa [AList.lookup_insert_ne hba] at hb

theorem lookup_of_lookup_erase {d : Table Ingestion} {a b : ObjectId} {u : Ingestion}
    (hb : (d.erase a).lookup b = some u) : d.lookup b = some u := by
  by_cases hba : b = a
  · subst hba; rw [AList.lookup_erase] at hb; cases hb
  · rwa [AList.lookup_erase_ne hba] at hb

theorem Serial.evicted {n : Node} (h : Serial storage n) {s' : ContentService} {a : ObjectId}
    {e : Nat} {ph : Phase}
    (hc : s'.contentSizeSum ≤ n.service.contentSizeSum)
    (hph : ph = .evicted → (e : Int) ≤ s'.freeSpace storage)
    (hsingle : ∀ b t, n.ingestions.lookup b = some t → t.written = none → b = a) :
    Serial storage ⟨s', n.ingestions.insert a ⟨e, ph⟩⟩ := by
  refine ⟨fun b c t u hb hc' htb huc => ?_, fun b e' hb => ?_⟩
  · have key : ∀ {b t}, (n.ingestions.insert a ⟨e, ph⟩).lookup b = some t → t.written = none →
        b = a := fun {b t} hb ht => by
      by_cases hba : b = a
      · exact hba
      · rw [AList.lookup_insert_ne hba] at hb; exact hsingle b t hb ht
    rw [key hb htb, key hc' huc]
  · by_cases hba : b = a
    · subst hba
      rw [AList.lookup_insert, Option.some.injEq, Ingestion.mk.injEq] at hb
      obtain ⟨rfl, rfl⟩ := hb
      exact hph rfl
    · rw [AList.lookup_insert_ne hba] at hb
      have := h.room b e' hb
      simp only [ContentService.freeSpace] at this ⊢
      omega

theorem Serial.step {n n' : Node} (h : Serial storage n) {ev : Event} (ha : n.admits ev)
    (hs : n.step policy storage fileType ev = some n') : Serial storage n' := by
  have hc : n.reserves storage ev = false →
      n'.service.contentSizeSum ≤ n.service.contentSizeSum := fun hr => contentSizeSum_step_le hr hs
  cases ev with
  | handleNewContent a e =>
    obtain ⟨-, -, rfl⟩ := step_handleNewContent hs
    have hnone : ∀ b t, n.ingestions.lookup b = some t → t.written = none → b = a :=
      fun b t hb ht => absurd ht (admits_handleNewContent ha hb)
    simp only [ContentService.handleNewContent]
    split_ifs
    · exact h.evicted (evictFor_contentSizeSum_le _ _) (n.service.evictFor_target policy storage e)
        hnone
    · have hw : Ingestion.written ⟨e, .streaming 0 [] 0⟩ ≠ none := by simp [Ingestion.written]
      refine ⟨fun b c t u hb hc htb huc => ?_, fun b e' hb => ?_⟩
      · rw [hnone b t (lookup_insert_of_written hw hb htb) htb,
          hnone c u (lookup_insert_of_written hw hc huc) huc]
      · exact absurd rfl (admits_handleNewContent ha (lookup_insert_of_written hw hb rfl))
  | timer a =>
    obtain ⟨e, hl, rfl⟩ := step_timer hs
    exact h.evicted (hc rfl) (n.service.evictFor_target policy storage e)
      fun b t hb ht => h.single b a t _ hb hl ht rfl
  | resume a =>
    obtain ⟨e, hl, rfl⟩ := step_resume hs
    have hw : Ingestion.written ⟨e, .streaming 0 [] 0⟩ ≠ none := by simp [Ingestion.written]
    refine ⟨fun b c t u hb hc htb huc => h.single b c t u (lookup_insert_of_written hw hb htb)
      (lookup_insert_of_written hw hc huc) htb huc, fun b e' hb => ?_⟩
    have hb' := lookup_insert_of_written hw hb rfl
    have hab := h.single a b _ _ hl hb' rfl rfl
    subst hab
    rw [AList.lookup_insert, Option.some.injEq, Ingestion.mk.injEq] at hb
    cases hb.2
  | source a ev =>
    obtain ⟨e, r, q, w, -, rfl⟩ := step_source hs
    exact h.mono (hc rfl) fun b t hb ht =>
      lookup_insert_of_written (by simp [Ingestion.written_onSource]) hb ht
  | written a =>
    obtain ⟨e, ph, s', ph', -, hw, rfl⟩ := step_written hs
    obtain ⟨w, k, rfl, -, hw'⟩ := Ingestion.written_writeNext hw e
    exact h.mono (hc rfl) fun b t hb ht => lookup_insert_of_written (by simp [hw']) hb ht
  | callback a =>
    obtain ⟨e, err, r, q, w, -, -, ⟨rfl, rfl, rfl, rfl⟩ | ⟨-, rfl⟩⟩ := step_callback hs
    · exact h.mono (hc rfl) fun b t hb ht =>
        lookup_insert_of_written (by simp [Ingestion.written]) hb ht
    · exact h.mono (hc rfl) fun b t hb _ => lookup_of_lookup_erase hb
  | mimeDetected a =>
    obtain ⟨e, -, rfl⟩ := step_mimeDetected hs
    exact h.mono (hc rfl) fun b t hb _ => lookup_of_lookup_erase hb
  | drop a =>
    obtain ⟨-, rfl⟩ := step_drop hs
    exact h.mono (hc rfl) fun b t hb _ => hb
  | cacheCleanup S =>
    obtain rfl := step_cacheCleanup hs
    exact h.mono (hc rfl) fun b t hb _ => hb

theorem Serial.started (supportedObjects : SupportedObjects) (s : ContentService) {n : Node}
    (h : SerialReachable policy storage fileType (started fileType supportedObjects s) n) :
    Serial storage n := by
  induction h with
  | refl => exact ⟨fun a _ _ _ h => by simp [Node.started, AList.lookup_empty] at h,
      fun a _ h => by simp [Node.started, AList.lookup_empty] at h⟩
  | step ev _ ha hs ih => exact ih.step ha hs

theorem Serial.reserve_within_storage {n n' : Node} (hS : Serial storage n) {ev : Event}
    (hr : n.reserves storage ev) (hs : n.step policy storage fileType ev = some n') :
    0 ≤ n'.service.freeSpace storage := by
  cases ev with
  | handleNewContent a e =>
    obtain ⟨-, -, rfl⟩ := step_handleNewContent hs
    simp only [reserves, Bool.not_eq_true', decide_eq_false_iff_not] at hr
    rw [ContentService.handleNewContent, if_neg hr]
    simp only [ContentService.freeSpace, ContentService.reserve] at hr ⊢
    omega
  | resume a =>
    obtain ⟨e, hl, rfl⟩ := step_resume hs
    have := hS.room a e hl
    simp only [ContentService.freeSpace, ContentService.reserve] at this ⊢
    omega
  | _ => cases hr

theorem Serial.freeSpace_step {n n' : Node} (hS : Serial storage n)
    (hf : 0 ≤ n.service.freeSpace storage) {ev : Event}
    (hs : n.step policy storage fileType ev = some n') : 0 ≤ n'.service.freeSpace storage := by
  cases hr : n.reserves storage ev
  · have := contentSizeSum_step_le hr hs
    simp only [ContentService.freeSpace] at hf ⊢
    omega
  · exact hS.reserve_within_storage hr hs

/-- Serialised calls: every reservation, of a call that found room at once or of one resuming
after its eviction, leaves `freeSpace ≥ 0`. -/
theorem serial_reservation_within_storage (supportedObjects : SupportedObjects)
    (s : ContentService) {n n' : Node}
    (h : SerialReachable policy storage fileType (started fileType supportedObjects s) n)
    {ev : Event} (hr : n.reserves storage ev)
    (hs : n.step policy storage fileType ev = some n') : 0 ≤ n'.service.freeSpace storage :=
  (Serial.started supportedObjects s h).reserve_within_storage hr hs

theorem serial_reservation_within_storage_resume :
    ∃ n n', SerialReachable ContentService.firstCached 10 (fun _ => none)
        (started (fun _ => none) (AList.singleton "x" 6)
          ⟨AList.singleton "x" 6, ⟨AList.singleton "x" 6, ∅, []⟩, 0⟩) n ∧
      n.reserves 10 (.resume "a") ∧
      n.step ContentService.firstCached 10 (fun _ => none) (.resume "a") = some n' ∧
      0 ≤ n'.service.freeSpace 10 :=
  have hn : SerialReachable ContentService.firstCached 10 (fun _ => none)
      (started (fun _ => none) (AList.singleton "x" 6)
        ⟨AList.singleton "x" 6, ⟨AList.singleton "x" 6, ∅, []⟩, 0⟩) _ :=
    .step (.handleNewContent "a" 6) .refl (by rfl) race_first_call_evicts
  ⟨_, _, hn, by rfl, rfl,
    @serial_reservation_within_storage ContentService.firstCached 10 (fun _ => none)
      (AList.singleton "x" 6) _ _ _ hn (.resume "a") (by rfl) rfl⟩

/-- Serialised calls from a reconciled service within the storage limit: `freeSpace` is never
negative, at any node of any run. -/
theorem serial_freeSpace_nonneg (supportedObjects : SupportedObjects) (s : ContentService)
    (h₀ : 0 ≤ (started fileType supportedObjects s).service.freeSpace storage) {n : Node}
    (h : SerialReachable policy storage fileType (started fileType supportedObjects s) n) :
    0 ≤ n.service.freeSpace storage := by
  induction h with
  | refl => exact h₀
  | step ev hm _ hs ih => exact (Serial.started supportedObjects s hm).freeSpace_step ih hs

theorem serial_freeSpace_nonneg_resume :
    0 ≤ (started (fun _ => none) (AList.singleton "x" 6)
        ⟨AList.singleton "x" 6, ⟨AList.singleton "x" 6, ∅, []⟩, 0⟩).service.freeSpace 10 ∧
    ∃ n, SerialReachable ContentService.firstCached 10 (fun _ => none)
        (started (fun _ => none) (AList.singleton "x" 6)
          ⟨AList.singleton "x" 6, ⟨AList.singleton "x" 6, ∅, []⟩, 0⟩) n ∧
      0 ≤ n.service.freeSpace 10 :=
  have hn : SerialReachable ContentService.firstCached 10 (fun _ => none)
      (started (fun _ => none) (AList.singleton "x" 6)
        ⟨AList.singleton "x" 6, ⟨AList.singleton "x" 6, ∅, []⟩, 0⟩) _ :=
    .step (.resume "a") (.step (.handleNewContent "a" 6) .refl (by rfl) race_first_call_evicts)
      (by rfl) rfl
  ⟨by decide, _, hn, @serial_freeSpace_nonneg ContentService.firstCached 10 (fun _ => none)
    (AList.singleton "x" 6) _ (by decide) _ hn⟩

/-! ## The bytes on disk within the limit -/

/-- Whether the event is a chunk that takes its call's count past `expectedSize`: the source
sends more than the caller declared. -/
def overflows (n : Node) : Event → Bool
  | .source a (.data k) =>
    match n.ingestions.lookup a with
    | some ⟨e, .streaming r _ _⟩ => decide (e < r + k)
    | _ => false
  | _ => false

variable (policy storage fileType) in
/-- The nodes a run of serialised calls whose sources never send more than they declared reaches
from `n₀`. -/
abbrev QuotaReachable (n₀ n : Node) : Prop :=
  ReachableBy policy storage fileType (fun n ev => n.admits ev ∧ n.overflows ev = false) n₀ n

/-- A call's file and the chunks its file stream holds make up what its listener counted, and
that is within `expectedSize`. -/
def Within (e : Nat) : Phase → Prop
  | .streaming r q w | .piped _ r q w => w + q.sum = r ∧ r ≤ e
  | _ => True

/-- Every call in flight is within its reservation. -/
def Fits (d : Table Ingestion) : Prop := ∀ a t, d.lookup a = some t → Within t.expectedSize t.phase

theorem Within.unwritten_nonneg {t : Ingestion} (h : Within t.expectedSize t.phase) :
    0 ≤ t.unwritten := by
  obtain ⟨e, ph⟩ := t
  cases ph with
  | streaming r q w => simp only [Within] at h; simp; omega
  | piped err r q w => simp only [Within] at h; simp; omega
  | _ => simp

theorem Fits.insert {d : Table Ingestion} (h : Fits d) {a : ObjectId} {t : Ingestion}
    (ht : Within t.expectedSize t.phase) : Fits (d.insert a t) := by
  intro b u hb
  by_cases hba : b = a
  · subst hba
    rw [AList.lookup_insert, Option.some.injEq] at hb
    exact hb ▸ ht
  · rw [AList.lookup_insert_ne hba] at hb
    exact h b u hb

theorem Fits.step {n n' : Node} (hF : Fits n.ingestions) {ev : Event}
    (ho : n.overflows ev = false) (hs : n.step policy storage fileType ev = some n') :
    Fits n'.ingestions := by
  have hev : ∀ e, Within e (n.service.evictFor policy storage e).2 := fun e => by
    simp only [ContentService.evictFor]; split_ifs <;> trivial
  have h0 : ∀ e, Within e (.streaming 0 [] 0) := fun e => ⟨rfl, Nat.zero_le e⟩
  cases ev with
  | handleNewContent a e =>
    obtain ⟨-, -, rfl⟩ := step_handleNewContent hs
    simp only [ContentService.handleNewContent]
    split_ifs
    · exact hF.insert (hev e)
    · exact hF.insert (h0 e)
  | timer a =>
    obtain ⟨e, -, rfl⟩ := step_timer hs
    exact hF.insert (hev e)
  | resume a =>
    obtain ⟨e, -, rfl⟩ := step_resume hs
    exact hF.insert (h0 e)
  | source a ev =>
    obtain ⟨e, r, q, w, hl, rfl⟩ := step_source hs
    obtain ⟨hq, hr⟩ := hF a _ hl
    refine hF.insert ?_
    cases ev with
    | data k =>
      simp only [overflows, hl, decide_eq_false_iff_not, not_lt] at ho
      simp only [ContentService.onSource]
      split_ifs <;> exact ⟨by rw [List.sum_append, List.sum_singleton]; omega, ho⟩
    | _ => exact ⟨hq, hr⟩
  | written a =>
    obtain ⟨e, ph, s', ph', hl, hw, rfl⟩ := step_written hs
    have hph := hF a _ hl
    refine hF.insert ?_
    obtain ⟨w, k, -, ⟨r, q, rfl, rfl⟩ | ⟨err, r, q, rfl, rfl⟩⟩ := ContentService.writeNext_eq_some hw <;>
    · simp only [Within, List.sum_cons] at hph ⊢; omega
  | callback a =>
    obtain ⟨e, err, r, q, w, -, -, ⟨-, -, -, rfl⟩ | ⟨-, rfl⟩⟩ := step_callback hs
    · exact hF.insert trivial
    · exact fun b u hb => hF b u (lookup_of_lookup_erase hb)
  | mimeDetected a =>
    obtain ⟨e, -, rfl⟩ := step_mimeDetected hs
    exact fun b u hb => hF b u (lookup_of_lookup_erase hb)
  | drop a =>
    obtain ⟨-, rfl⟩ := step_drop hs
    exact hF
  | cacheCleanup S =>
    rw [step_cacheCleanup hs]
    exact hF

theorem Fits.leak_nonneg {n : Node} (hF : Fits n.ingestions) (ev : Event) : 0 ≤ n.leak ev := by
  cases ev with
  | callback a =>
    simp only [leak]
    split
    · rename_i e err r q w hl
      have := (hF a _ hl).unwritten_nonneg
      rw [Ingestion.unwritten_piped] at this
      split_ifs <;> omega
    · exact le_refl 0
  | _ => exact le_refl 0

/-- Serialised calls whose sources never send more than they declared, from a reconciled service
within the storage limit: at every node the counter covers the bytes on disk, and the storage
limit covers the counter. -/
theorem disk_within_storage (supportedObjects : SupportedObjects) (s : ContentService)
    (hc : 0 ≤ s.contentSizeSum)
    (h₀ : 0 ≤ (started fileType supportedObjects s).service.freeSpace storage) {n : Node}
    (h : QuotaReachable policy storage fileType (started fileType supportedObjects s) n) :
    (sizeSum n.service.dataDir : Int) ≤ n.service.contentSizeSum ∧
      n.service.contentSizeSum ≤ storage := by
  have key : Serial storage n ∧ Inv n ∧ Fits n.ingestions ∧ 0 ≤ gap n ∧
      0 ≤ n.service.freeSpace storage := by
    induction h with
    | refl =>
      refine ⟨@Serial.started policy storage fileType supportedObjects s _ .refl,
        Inv.started supportedObjects s,
        fun a t h => by simp [Node.started, AList.lookup_empty] at h, ?_, h₀⟩
      rw [gap_started]
      exact hc
    | step ev _ hadm hs ih =>
      obtain ⟨hS, hI, hF, hg, hf⟩ := ih
      refine ⟨hS.step hadm.1 hs, hI.step hs, hF.step hadm.2 hs, ?_, hS.freeSpace_step hf hs⟩
      have := hF.leak_nonneg ev
      rw [gap_step hI hs]
      omega
  obtain ⟨-, -, hF, hg, hf⟩ := key
  have := tableSum_nonneg fun a t ht => (hF a t ht).unwritten_nonneg
  simp only [gap, ContentService.freeSpace] at hg hf
  omega

theorem disk_within_storage_committed :
    0 ≤ (⟨∅, ⟨∅, ∅, []⟩, 0⟩ : ContentService).contentSizeSum ∧
    0 ≤ (started (fun _ => none) ∅ ⟨∅, ⟨∅, ∅, []⟩, 0⟩).service.freeSpace 10 ∧
    ∃ n, QuotaReachable ContentService.firstCached 10 (fun _ => none)
        (started (fun _ => none) ∅ ⟨∅, ⟨∅, ∅, []⟩, 0⟩) n ∧
      n.service.dataDir.lookup "a" = some 4 ∧
      (sizeSum n.service.dataDir : Int) ≤ n.service.contentSizeSum ∧
      n.service.contentSizeSum ≤ 10 :=
  have hn : QuotaReachable ContentService.firstCached 10 (fun _ => none)
      (started (fun _ => none) ∅ ⟨∅, ⟨∅, ∅, []⟩, 0⟩) _ :=
    .step (.mimeDetected "a") (.step (.callback "a") (.step (.source "a" .end)
      (.step (.written "a") (.step (.source "a" (.data 4))
        (.step (.handleNewContent "a" 4) .refl ⟨rfl, rfl⟩ rfl) ⟨rfl, rfl⟩ rfl) ⟨rfl, rfl⟩ rfl)
          ⟨rfl, rfl⟩ rfl) ⟨rfl, rfl⟩ rfl) ⟨rfl, rfl⟩ rfl
  ⟨by decide, by decide, _, hn, rfl, @disk_within_storage ContentService.firstCached 10
    (fun _ => none) ∅ ⟨∅, ⟨∅, ∅, []⟩, 0⟩ (by decide) (by decide) _ hn⟩

/-- Without the hypothesis on the sources: the chunk that trips the overflow guard is already in
the file stream, which writes it, and 15 bytes stand on a disk of 10. -/
example : ((started (fun _ => none) ∅ ⟨∅, ⟨∅, ∅, []⟩, 0⟩).run ContentService.firstCached 10
    (fun _ => none) [.handleNewContent "a" 10, .source "a" (.data 15), .written "a"]).map
      (fun n => sizeSum n.service.dataDir) = some 15 := by
  decide

end Node

end Joystream
