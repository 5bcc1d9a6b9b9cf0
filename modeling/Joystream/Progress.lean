import Joystream.Interleaving

/-!
# Every call can finish

A call in flight is suspended at some `Phase`, and from each phase one event of its own is
always enabled: `resume` after the eviction, the end of the source while the pipeline runs, a
write while the file stream holds a chunk, the callback once the pipeline has settled and the
file stream holds nothing, `mimeDetected` while the type is detected. Only a call waiting for
eviction may find nothing to do: its timer fires, and it waits again while nothing can be
evicted.

**Theorem (`call_finishes`).** From every node, a call that is not waiting for eviction, or
whose eviction finds room now, runs to its end through its own events alone; every other call
is then where it was.

**Theorem (`calls_drain`).** So from every node in which no call waits for eviction, a run of the
calls' own events ends with no call in flight.

Both hold of every node, reachable or not: they only need the phase of each call.
-/

namespace Joystream

theorem erase_insert_self {β : Type} (d : Table β) (a : ObjectId) (b : β) :
    (d.insert a b).erase a = d.erase a :=
  AList.ext (by simp [AList.insert_entries, AList.erase, List.kerase_cons_eq])

/-- The object an event is about; a cleanup is about none. -/
def Event.objectId : Event → Option ObjectId
  | .handleNewContent a _ | .timer a | .resume a | .source a _ | .written a | .callback a
  | .mimeDetected a | .drop a => some a
  | .cacheCleanup _ => none

namespace Node

variable (policy : EvictionPolicy) (storage : Nat) (fileType : ObjectId → Option String)

/-- The events of the call on `a` that can move it on by themselves. -/
def ownEvents (a : ObjectId) : List Event :=
  [.timer a, .resume a, .source a .end, .written a, .callback a, .mimeDetected a]

/-- Some run of the call's own events ends the call on `a`, and leaves every other call where
it was. -/
def Finishes (n : Node) (a : ObjectId) : Prop :=
  ∃ evs n', evs ⊆ ownEvents a ∧ n.run policy storage fileType evs = some n' ∧
    n'.ingestions = n.ingestions.erase a

variable {policy storage fileType}

/-! ## One call -/

/-- An own event that moves the call on, followed by a run that ends it. -/
theorem Finishes.of_step {n m : Node} {a : ObjectId} {ev : Event} (hev : ev ∈ ownEvents a)
    (hs : n.step policy storage fileType ev = some m) {t : Ingestion}
    (hm : m.ingestions = n.ingestions.insert a t) (h : Finishes policy storage fileType m a) :
    Finishes policy storage fileType n a := by
  obtain ⟨evs, n', hsub, hr, hi⟩ := h
  refine ⟨ev :: evs, n', List.cons_subset.2 ⟨hev, hsub⟩, run_cons.2 ⟨m, hs, hr⟩, ?_⟩
  rw [hi, hm, erase_insert_self]

theorem finishes_detecting {n : Node} {a : ObjectId} {e : Nat}
    (hl : n.ingestions.lookup a = some ⟨e, .detecting⟩) : Finishes policy storage fileType n a :=
  ⟨[.mimeDetected a], ⟨n.service.commitContent fileType a e, n.ingestions.erase a⟩,
    by simp [ownEvents], by simp [run, step, hl], rfl⟩

theorem finishes_piped {a : ObjectId} {e : Nat} {err : Bool} {r : Nat} :
    ∀ (q : List Nat) {n : Node} {w : Nat}, n.ingestions.lookup a = some ⟨e, .piped err r q w⟩ →
      Finishes policy storage fileType n a
  | [], n, w, hl => by
    by_cases hok : err = false ∧ w = r ∧ w = e
    · obtain ⟨rfl, rfl, rfl⟩ := hok
      have hs : n.step policy storage fileType (.callback a) =
          some ⟨n.service, n.ingestions.insert a ⟨w, .detecting⟩⟩ := by
        simp [step, hl, ContentService.pipelineCallback_ok]
      exact .of_step (by simp [ownEvents]) hs rfl (finishes_detecting (AList.lookup_insert _))
    · have hs : n.step policy storage fileType (.callback a) =
          some ⟨n.service.drop a, n.ingestions.erase a⟩ := by
        simp [step, hl, ContentService.pipelineCallback_of_not_ok _ _ hok]
      exact ⟨[.callback a], ⟨n.service.drop a, n.ingestions.erase a⟩, by simp [ownEvents],
        by simp [run, hs], rfl⟩
  | k :: q, n, w, hl =>
    have hs : n.step policy storage fileType (.written a) = some ⟨n.service.onWritten a w k,
        n.ingestions.insert a ⟨e, .piped err r q (w + k)⟩⟩ := by
      simp [step, hl, ContentService.writeNext]
    .of_step (by simp [ownEvents]) hs rfl (finishes_piped q (AList.lookup_insert _))

theorem finishes_streaming {n : Node} {a : ObjectId} {e r : Nat} {q : List Nat} {w : Nat}
    (hl : n.ingestions.lookup a = some ⟨e, .streaming r q w⟩) :
    Finishes policy storage fileType n a :=
  have hs : n.step policy storage fileType (.source a .end) =
      some ⟨n.service, n.ingestions.insert a ⟨e, .piped false r q w⟩⟩ := by
    simp [step, hl, ContentService.onSource]
  .of_step (by simp [ownEvents]) hs rfl (finishes_piped q (AList.lookup_insert _))

theorem finishes_evicted {n : Node} {a : ObjectId} {e : Nat}
    (hl : n.ingestions.lookup a = some ⟨e, .evicted⟩) : Finishes policy storage fileType n a := by
  have hs : n.step policy storage fileType (.resume a) =
      some ⟨n.service.reserve a e, n.ingestions.insert a ⟨e, .streaming 0 [] 0⟩⟩ := by
    simp [step, hl]
  exact .of_step (by simp [ownEvents]) hs rfl (finishes_streaming (AList.lookup_insert _))

/-- A call that is not waiting for eviction, or whose eviction finds room now, finishes. -/
theorem finishes_of_room {n : Node} {a : ObjectId} {t : Ingestion}
    (hl : n.ingestions.lookup a = some t)
    (hroom : t.phase = .evicting → (n.service.evictFor policy storage t.expectedSize).2 = .evicted) :
    Finishes policy storage fileType n a := by
  obtain ⟨e, ph⟩ := t
  cases ph with
  | evicting =>
    have hs : n.step policy storage fileType (.timer a) =
        some ⟨(n.service.evictFor policy storage e).1, n.ingestions.insert a ⟨e, .evicted⟩⟩ := by
      simp [step, hl, hroom rfl]
    exact Finishes.of_step (by simp [ownEvents]) hs rfl (finishes_evicted (AList.lookup_insert _))
  | evicted => exact finishes_evicted hl
  | streaming r q w => exact finishes_streaming hl
  | piped err r q w => exact finishes_piped q hl
  | detecting => exact finishes_detecting hl

/-- A call that is not waiting for eviction, or whose eviction finds room now, runs to its end
through its own events alone, and every other call stays where it was. -/
theorem call_finishes {n : Node} {a : ObjectId} {t : Ingestion}
    (hl : n.ingestions.lookup a = some t)
    (hroom : t.phase = .evicting → (n.service.evictFor policy storage t.expectedSize).2 = .evicted) :
    ∃ evs n', evs ⊆ ownEvents a ∧ n.run policy storage fileType evs = some n' ∧
      n'.ingestions = n.ingestions.erase a :=
  finishes_of_room hl hroom

theorem call_finishes_streaming :
    ∃ n, (started (fun _ => none) ∅ ⟨∅, ⟨∅, ∅, []⟩, 0⟩).run ContentService.firstCached 10
        (fun _ => none) [.handleNewContent "a" 2] = some n ∧
      n.ingestions.lookup "a" = some ⟨2, .streaming 0 [] 0⟩ ∧
      ∃ evs n', evs ⊆ ownEvents "a" ∧
        n.run ContentService.firstCached 10 (fun _ => none) evs = some n' ∧
        n'.ingestions = n.ingestions.erase "a" :=
  ⟨_, rfl, by decide,
    @call_finishes ContentService.firstCached 10 (fun _ => none) _ "a" ⟨2, .streaming 0 [] 0⟩
      (by decide) fun h => by cases h⟩

/-- With a policy that names a tracked object while the index holds one, a call waiting for
eviction runs to its end through its own events as soon as the free space and the bytes of the
tracked files together reach what it asked for. -/
theorem waiting_call_finishes (hlive : ∀ c : StateCache, c.cached.keys ≠ [] →
      (policy.getCacheEvictCandidateObjectId c).isSome)
    {n : Node} {a : ObjectId} {e : Nat} (hl : n.ingestions.lookup a = some ⟨e, .evicting⟩)
    (hroom : (e : Int) ≤ n.service.freeSpace storage + n.service.trackedSize) :
    ∃ evs n', evs ⊆ ownEvents a ∧ n.run policy storage fileType evs = some n' ∧
      n'.ingestions = n.ingestions.erase a :=
  finishes_of_room hl fun _ => by
    simp [ContentService.evictFor, (ContentService.evict_reaches_target hlive e n.service hroom).1]

theorem waiting_call_finishes_cached :
    (∀ c : StateCache, c.cached.keys ≠ [] →
      (ContentService.firstCached.getCacheEvictCandidateObjectId c).isSome) ∧
    (⟨⟨AList.singleton "b" 5, ⟨AList.singleton "b" 5, ∅, []⟩, 5⟩,
      AList.singleton "a" ⟨8, .evicting⟩⟩ : Node).ingestions.lookup "a" = some ⟨8, .evicting⟩ ∧
    ((8 : Nat) : Int) ≤
      (⟨AList.singleton "b" 5, ⟨AList.singleton "b" 5, ∅, []⟩, 5⟩ : ContentService).freeSpace 10 +
        (⟨AList.singleton "b" 5, ⟨AList.singleton "b" 5, ∅, []⟩, 5⟩ : ContentService).trackedSize ∧
    ∃ evs n', evs ⊆ ownEvents "a" ∧
      (⟨⟨AList.singleton "b" 5, ⟨AList.singleton "b" 5, ∅, []⟩, 5⟩,
        AList.singleton "a" ⟨8, .evicting⟩⟩ : Node).run ContentService.firstCached 10
          (fun _ => none) evs = some n' ∧
      n'.ingestions = (AList.singleton "a" ⟨8, .evicting⟩ : Table Ingestion).erase "a" :=
  have hlive : ∀ c : StateCache, c.cached.keys ≠ [] →
      (ContentService.firstCached.getCacheEvictCandidateObjectId c).isSome := fun c h => by
    cases hk : c.cached.keys with
    | nil => exact absurd hk h
    | cons a l => simp [ContentService.firstCached, hk]
  ⟨hlive, by decide, by decide, @waiting_call_finishes ContentService.firstCached 10 (fun _ => none)
    hlive _ "a" 8 (by decide) (by decide)⟩

/-! ## No other event moves a call -/

theorem dataDir_lookup_dropSet (s : ContentService) {p : ObjectId → Bool} {a : ObjectId}
    (hp : p a = false) : (s.dropSet p).dataDir.lookup a = s.dataDir.lookup a := by
  simp [ContentService.dropSet, hp]

theorem dataDir_lookup_evictFor {s : ContentService} {a : ObjectId} (ha : a ∉ s.stateCache.cached)
    (e : Nat) : (s.evictFor policy storage e).1.dataDir.lookup a = s.dataDir.lookup a := by
  obtain ⟨p, hp, he⟩ := s.evictFor_eq_dropSet policy storage e
  rw [he, dataDir_lookup_dropSet s (Bool.eq_false_iff.2 fun h => ha (hp a h))]

/-- The events of other calls, drops and cleanups leave a call in flight where it is, and its
file as it is: eviction and cleanup only remove tracked objects, and the index tracks no object
in flight. -/
theorem in_flight_isolated {n n' : Node} (hI : Inv n) {ev : Event}
    (h : n.step policy storage fileType ev = some n') {a : ObjectId} (ha : a ∈ n.ingestions)
    (hev : ev.objectId ≠ some a) :
    n'.ingestions.lookup a = n.ingestions.lookup a ∧
      n'.service.dataDir.lookup a = n.service.dataDir.lookup a := by
  have hc := hI.not_cached a ha
  have hne : ∀ b, ev.objectId = some b → a ≠ b := fun b hb h' => hev (h' ▸ hb)
  cases ev with
  | handleNewContent b e =>
    obtain ⟨-, -, rfl⟩ := step_handleNewContent h
    refine ⟨AList.lookup_insert_ne (hne b rfl), ?_⟩
    simp only [ContentService.handleNewContent]
    split_ifs
    · exact dataDir_lookup_evictFor hc e
    · exact AList.lookup_insert_ne (hne b rfl)
  | timer b =>
    obtain ⟨e, -, rfl⟩ := step_timer h
    exact ⟨AList.lookup_insert_ne (hne b rfl), dataDir_lookup_evictFor hc e⟩
  | resume b =>
    obtain ⟨e, -, rfl⟩ := step_resume h
    exact ⟨AList.lookup_insert_ne (hne b rfl), AList.lookup_insert_ne (hne b rfl)⟩
  | source b ev =>
    obtain ⟨e, r, q, w, -, rfl⟩ := step_source h
    exact ⟨AList.lookup_insert_ne (hne b rfl), rfl⟩
  | written b =>
    obtain ⟨e, ph, s', ph', -, hw, rfl⟩ := step_written h
    obtain ⟨w, k, rfl, -⟩ := Ingestion.written_writeNext hw e
    exact ⟨AList.lookup_insert_ne (hne b rfl), AList.lookup_insert_ne (hne b rfl)⟩
  | callback b =>
    obtain ⟨e, err, r, q, w, -, -, ⟨rfl, rfl, rfl, rfl⟩ | ⟨-, rfl⟩⟩ := step_callback h
    · exact ⟨AList.lookup_insert_ne (hne b rfl), rfl⟩
    · exact ⟨AList.lookup_erase_ne (hne b rfl), by simp [AList.lookup_erase_ne (hne b rfl)]⟩
  | mimeDetected b =>
    obtain ⟨e, -, rfl⟩ := step_mimeDetected h
    exact ⟨AList.lookup_erase_ne (hne b rfl), rfl⟩
  | drop b =>
    obtain ⟨hb, rfl⟩ := step_drop h
    exact ⟨rfl, by simp [AList.lookup_erase_ne fun h' : a = b => hb (h' ▸ ha)]⟩
  | cacheCleanup S =>
    rw [step_cacheCleanup h, ContentService.cacheCleanup_eq_dropSet]
    exact ⟨rfl, dataDir_lookup_dropSet _ (by simp [hc])⟩

theorem in_flight_isolated_cleanup :
    ∃ n, (started (fun _ => none) ∅ ⟨∅, ⟨∅, ∅, []⟩, 0⟩).run ContentService.firstCached 10
        (fun _ => none) [.handleNewContent "a" 2] = some n ∧
      Inv n ∧ "a" ∈ n.ingestions ∧ (Event.cacheCleanup ∅).objectId ≠ some "a" ∧
      ∃ n', n.step ContentService.firstCached 10 (fun _ => none) (.cacheCleanup ∅) = some n' ∧
        n'.ingestions.lookup "a" = n.ingestions.lookup "a" ∧
        n'.service.dataDir.lookup "a" = n.service.dataDir.lookup "a" := by
  have hI := @gap_run ContentService.firstCached 10 (fun _ => none)
    (started (fun _ => none) ∅ ⟨∅, ⟨∅, ∅, []⟩, 0⟩) _ (Inv.started ∅ _) [.handleNewContent "a" 2] rfl
  exact ⟨_, rfl, hI.1, by decide, by decide, _, rfl,
    @in_flight_isolated ContentService.firstCached 10 (fun _ => none) _ _ hI.1 (.cacheCleanup ∅) rfl
      "a" (by decide) (by decide)⟩

/-! ## All calls -/

/-- From a node in which no call waits for eviction, a run of the calls' own events ends with no
call in flight. -/
theorem calls_drain (n : Node) (h : ∀ c ∈ n.ingestions.entries, c.2.phase ≠ .evicting) :
    ∃ evs n', (∀ ev ∈ evs, ∃ a ∈ n.ingestions, ev ∈ ownEvents a) ∧
      n.run policy storage fileType evs = some n' ∧ n'.ingestions = ∅ := by
  match he : n.ingestions.entries with
  | [] => exact ⟨[], n, by simp, rfl, AList.ext he⟩
  | c :: _ =>
    have hc : c ∈ n.ingestions.entries := he ▸ List.mem_cons_self c _
    have hl : n.ingestions.lookup c.1 = some c.2 := AList.mem_lookup_iff.2 hc
    obtain ⟨evs₁, n₁, hsub, hr₁, hi₁⟩ :=
      @finishes_of_room policy storage fileType n c.1 c.2 hl fun hph => absurd hph (h c hc)
    obtain ⟨evs₂, n', hown, hr₂, hi'⟩ := calls_drain n₁ fun d hd =>
      h d ((List.kerase_sublist _ _).subset (hi₁ ▸ hd))
    refine ⟨evs₁ ++ evs₂, n', fun ev hev => ?_, by rw [run_append, hr₁, Option.some_bind, hr₂],
      hi'⟩
    rcases List.mem_append.1 hev with hev | hev
    · exact ⟨c.1, mem_of_lookup_eq_some hl, hsub hev⟩
    · obtain ⟨b, hb, hev⟩ := hown ev hev
      exact ⟨b, (AList.mem_erase.1 (hi₁ ▸ hb)).2, hev⟩
termination_by n.ingestions.keys.length
decreasing_by rw [hi₁]; exact keys_length_erase_lt (mem_of_lookup_eq_some hl)

theorem calls_drain_two_calls :
    ∃ n, (started (fun _ => none) ∅ ⟨∅, ⟨∅, ∅, []⟩, 0⟩).run ContentService.firstCached 10
        (fun _ => none) [.handleNewContent "a" 2, .handleNewContent "b" 3, .source "a" (.data 1)] =
        some n ∧
      (∀ c ∈ n.ingestions.entries, c.2.phase ≠ .evicting) ∧
      ∃ evs n', (∀ ev ∈ evs, ∃ a ∈ n.ingestions, ev ∈ ownEvents a) ∧
        n.run ContentService.firstCached 10 (fun _ => none) evs = some n' ∧ n'.ingestions = ∅ :=
  ⟨_, rfl, by decide, calls_drain _ (by decide)⟩

end Node

end Joystream
