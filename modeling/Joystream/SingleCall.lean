import Joystream.Interleaving

/-!
# One call on its own

`ContentService.ingest` reads one `handleNewContent` call, from its reservation to its end, as
one sequential function; the commit decision is proved about it. In the interleaved model the
same call is a sequence of events, the writes of its file stream among them. When no other event
comes between them and each chunk is written as it arrives, the events end where `ingest` does.

**Theorem (`call_alone_refines_ingest`).** A call whose eviction, if it needs one, does not
wait, and which runs with no other event between its stretches and its file stream's writes,
leaves the service that `ingest` computes from the state after its eviction, and the other calls
as they were. So what is proved of `ingest` holds of every call that runs alone.

**Theorem (`turns_refine_sequential`).** Calls that take turns, each running alone from its first
stretch to its end before the next begins, end where the sequential program ends: the calls'
`handleNewContentAlone`, one after the other, from the same service.
-/

namespace Joystream

theorem erase_insert_of_not_mem {β : Type} {d : Table β} {a : ObjectId} (h : a ∉ d) (b : β) :
    (d.insert a b).erase a = d :=
  AList.ext (by
    simp [AList.insert_entries_of_neg h, AList.erase, List.kerase_cons_eq,
      List.kerase_of_not_mem_keys h])

namespace ContentService

variable (policy : EvictionPolicy) (storage : Nat) (fileType : ObjectId → Option String)

/-- One `handleNewContent` call run alone, from its first stretch to its end: the eviction when
`freeSpace` is short of `expectedSize`, then the reservation, the pipeline and its callback. -/
def handleNewContentAlone (s : ContentService) (objectId : ObjectId) (expectedSize : Nat)
    (src : Source) : ContentService :=
  (if s.freeSpace storage < expectedSize then (s.evictFor policy storage expectedSize).1
    else s).ingest fileType objectId expectedSize src

end ContentService

namespace Node

variable (policy : EvictionPolicy) (storage : Nat) (fileType : ObjectId → Option String)

/-- The events of the pipeline of the call on `a`, its file stream writing each chunk as it
arrives: every chunk up to the one that overflows, or up to the end or the error. -/
def taken (a : ObjectId) (expectedSize : Nat) : Nat → List SourceEvent → List Event
  | r, .data k :: evs =>
    .source a (.data k) :: .written a ::
      if r + k > expectedSize then [] else taken a expectedSize (r + k) evs
  | _, ev :: _ => [.source a ev]
  | _, [] => []

/-- The events of the call on `a` after its reservation, with no other event between them. -/
def callEvents (a : ObjectId) (e : Nat) (src : Source) : List Event :=
  taken a e 0 src.events ++ .callback a ::
    if (ContentService.settle e 0 src.chunks src.fails).1 = false ∧
      (ContentService.settle e 0 src.chunks src.fails).2 = e then [.mimeDetected a] else []

/-- The events of a call on `a` that runs alone from `s`, from its first stretch to its end. -/
def aloneEvents (s : ContentService) (a : ObjectId) (e : Nat) (src : Source) : List Event :=
  .handleNewContent a e :: ((if s.freeSpace storage < e then [.resume a] else []) ++ callEvents a e src)

/-- Calls that take turns: each runs alone, from its first stretch to its end, before the next
begins. -/
def turns : ContentService → List (ObjectId × Nat × Source) → List Event
  | _, [] => []
  | s, (a, e, src) :: calls =>
    aloneEvents storage s a e src ++
      turns (s.handleNewContentAlone policy storage fileType a e src) calls

/-- What calls taking turns ask: when its turn comes, each names an object with no file and no
call in flight, and its eviction, if it needs one, does not wait. -/
def InTurn (d : Table Ingestion) : ContentService → List (ObjectId × Nat × Source) → Prop
  | _, [] => True
  | s, (a, e, src) :: calls =>
    a ∉ s.dataDir ∧ a ∉ d ∧ (s.handleNewContent policy storage a e).2 ≠ .evicting ∧
      InTurn d (s.handleNewContentAlone policy storage fileType a e src) calls

variable {policy storage fileType}

/-! ## The stretches, forwards -/

theorem step_source_of {n : Node} {a : ObjectId} {e r : Nat} {q : List Nat} {w : Nat}
    (hl : n.ingestions.lookup a = some ⟨e, .streaming r q w⟩) (ev : SourceEvent) :
    n.step policy storage fileType (.source a ev) =
      some ⟨n.service, n.ingestions.insert a ⟨e, ContentService.onSource e r q w ev⟩⟩ := by
  simp only [step, hl]

theorem run_taken {a : ObjectId} {e : Nat} (fails : Bool) (chunks : List Nat) :
    ∀ {n : Node} {r w : Nat}, n.ingestions.lookup a = some ⟨e, .streaming r [] w⟩ →
      n.run policy storage fileType (taken a e r (Source.events ⟨chunks, fails⟩)) =
        some ⟨(ContentService.runPipeline a e n.service (.streaming r [] w)
            (Source.events ⟨chunks, fails⟩)).1,
          n.ingestions.insert a ⟨e, (ContentService.runPipeline a e n.service (.streaming r [] w)
            (Source.events ⟨chunks, fails⟩)).2⟩⟩ := by
  induction chunks with
  | nil =>
    intro n r w hl
    cases fails <;> simp [Source.events, taken, run, step_source_of hl, ContentService.runPipeline,
      ContentService.onSource, ContentService.writeNext]
  | cons k ks ih =>
    intro n r w hl
    have hev : Source.events ⟨k :: ks, fails⟩ = .data k :: Source.events ⟨ks, fails⟩ := rfl
    rw [hev]
    by_cases hk : r + k > e
    · simp [taken, hk, run, hl, step, ContentService.runPipeline, ContentService.onSource,
        ContentService.writeNext]
    · have hl' : ((n.ingestions.insert a ⟨e, .streaming (r + k) [k] w⟩).insert a
          ⟨e, .streaming (r + k) [] (w + k)⟩).lookup a = some ⟨e, .streaming (r + k) [] (w + k)⟩ :=
        AList.lookup_insert _
      simp only [taken, hk, if_false, run, hl, step, ContentService.onSource, List.nil_append,
        Option.some_bind, AList.lookup_insert, ContentService.writeNext, Option.map_some',
        ContentService.runPipeline, Option.getD_some]
      rw [ih hl', AList.insert_insert, AList.insert_insert]

theorem run_after_reserve {s : ContentService} {d : Table Ingestion} {a : ObjectId}
    (hi : a ∉ d) (e : Nat) (src : Source) :
    (⟨s.reserve a e, d.insert a ⟨e, .streaming 0 [] 0⟩⟩ : Node).run policy storage fileType
      (callEvents a e src) = some ⟨s.ingest fileType a e src, d⟩ := by
  obtain ⟨chunks, fails⟩ := src
  have hres : (s.reserve a e).dataDir.lookup a = some 0 := AList.lookup_insert _
  obtain ⟨hph, -⟩ := ContentService.runPipeline_spec a e ⟨chunks, fails⟩ (s.reserve a e) 0 hres
  generalize hp : ContentService.runPipeline a e (s.reserve a e) (.streaming 0 [] 0)
    (Source.events ⟨chunks, fails⟩) = p at hph
  obtain ⟨s', ph⟩ := p
  simp only at hph
  subst hph
  have hsrc := @run_taken policy storage fileType a e fails chunks
    ⟨s.reserve a e, d.insert a ⟨e, .streaming 0 [] 0⟩⟩ 0 0 (AList.lookup_insert _)
  simp only [hp, AList.insert_insert] at hsrc
  rw [callEvents, run_append, hsrc, Option.some_bind, ContentService.ingest_eq, hp]
  generalize ContentService.settle e 0 chunks fails = q
  obtain ⟨err, w⟩ := q
  clear hsrc hp hres
  simp only [run, step, AList.lookup_insert, ContentService.pipelineCallback]
  by_cases hok : err = false ∧ w = e
  · obtain ⟨rfl, rfl⟩ := hok
    simp [run, step, erase_insert_of_not_mem hi]
  · cases err <;> simp_all [run, erase_insert_of_not_mem hi]

theorem run_aloneEvents {n : Node} {a : ObjectId} {e : Nat} (hd : a ∉ n.service.dataDir)
    (hi : a ∉ n.ingestions) (hwait : (n.service.handleNewContent policy storage a e).2 ≠ .evicting)
    (src : Source) :
    n.run policy storage fileType (aloneEvents storage n.service a e src) =
      some ⟨n.service.handleNewContentAlone policy storage fileType a e src, n.ingestions⟩ := by
  have hstep : n.step policy storage fileType (.handleNewContent a e) =
      some ⟨(n.service.handleNewContent policy storage a e).1,
        n.ingestions.insert a ⟨e, (n.service.handleNewContent policy storage a e).2⟩⟩ := by
    simp [step, hd, hi]
  rw [aloneEvents, run, hstep, Option.some_bind]
  by_cases hroom : n.service.freeSpace storage < e
  · have hev : (n.service.evictFor policy storage e).2 = .evicted := by
      simp only [ContentService.handleNewContent, if_pos hroom] at hwait
      revert hwait
      simp only [ContentService.evictFor]
      split_ifs <;> simp
    simp only [ContentService.handleNewContent, ContentService.handleNewContentAlone, if_pos hroom,
      hev, List.singleton_append, run, step, AList.lookup_insert, Option.some_bind,
      AList.insert_insert]
    exact run_after_reserve hi e src
  · simp only [ContentService.handleNewContent, ContentService.handleNewContentAlone,
      if_neg hroom, List.nil_append]
    exact run_after_reserve hi e src

/-- A call whose eviction, if it needs one, does not wait, and which runs with no other event
between its stretches, ends where `ingest` does from the state after its eviction, and leaves
the other calls as they were. -/
theorem call_alone_refines_ingest {n : Node} {a : ObjectId} {e : Nat} (hd : a ∉ n.service.dataDir)
    (hi : a ∉ n.ingestions) (hwait : (n.service.handleNewContent policy storage a e).2 ≠ .evicting)
    (src : Source) :
    n.run policy storage fileType (.handleNewContent a e ::
        ((if n.service.freeSpace storage < e then [.resume a] else []) ++ callEvents a e src)) =
      some ⟨(if n.service.freeSpace storage < e then (n.service.evictFor policy storage e).1
        else n.service).ingest fileType a e src, n.ingestions⟩ :=
  run_aloneEvents hd hi hwait src

theorem call_alone_refines_ingest_two_bytes :
    "a" ∉ (started (fun _ => none) ∅ ⟨∅, ⟨∅, ∅, []⟩, 0⟩).service.dataDir ∧
    "a" ∉ (started (fun _ => none) ∅ ⟨∅, ⟨∅, ∅, []⟩, 0⟩).ingestions ∧
    ((started (fun _ => none) ∅ ⟨∅, ⟨∅, ∅, []⟩, 0⟩).service.handleNewContent
      ContentService.firstCached 10 "a" 2).2 ≠ .evicting ∧
    (started (fun _ => none) ∅ ⟨∅, ⟨∅, ∅, []⟩, 0⟩).run ContentService.firstCached 10 (fun _ => none)
        (.handleNewContent "a" 2 ::
          ((if (started (fun _ => none) ∅ ⟨∅, ⟨∅, ∅, []⟩, 0⟩).service.freeSpace 10 < (2 : Nat)
            then [.resume "a"] else []) ++ callEvents "a" 2 ⟨[2], false⟩)) =
      some ⟨(if (started (fun _ => none) ∅ ⟨∅, ⟨∅, ∅, []⟩, 0⟩).service.freeSpace 10 < (2 : Nat)
          then ((started (fun _ => none) ∅ ⟨∅, ⟨∅, ∅, []⟩, 0⟩).service.evictFor
            ContentService.firstCached 10 2).1
          else (started (fun _ => none) ∅ ⟨∅, ⟨∅, ∅, []⟩, 0⟩).service).ingest (fun _ => none) "a" 2
        ⟨[2], false⟩, (started (fun _ => none) ∅ ⟨∅, ⟨∅, ∅, []⟩, 0⟩).ingestions⟩ :=
  ⟨by decide, by decide, by decide,
    call_alone_refines_ingest (by decide) (by decide) (by decide) _⟩

/-! ## Calls that take turns -/

/-- Calls that take turns, each alone from its first stretch to its end, end where the
sequential program does: the calls' `handleNewContentAlone`, one after the other. -/
theorem turns_refine_sequential (calls : List (ObjectId × Nat × Source)) :
    ∀ {n : Node}, InTurn policy storage fileType n.ingestions n.service calls →
      n.run policy storage fileType (turns policy storage fileType n.service calls) =
        some ⟨calls.foldl (fun s c => s.handleNewContentAlone policy storage fileType c.1 c.2.1 c.2.2)
          n.service, n.ingestions⟩ := by
  induction calls with
  | nil => intro n _; rfl
  | cons c calls ih =>
    obtain ⟨a, e, src⟩ := c
    intro n h
    obtain ⟨hd, hi, hwait, h⟩ := h
    rw [turns, run_append, run_aloneEvents hd hi hwait src, Option.some_bind]
    exact @ih ⟨_, n.ingestions⟩ h

theorem turns_refine_sequential_two_calls :
    InTurn ContentService.firstCached 10 (fun _ => none) ∅ ⟨∅, ⟨∅, ∅, []⟩, 0⟩
      [("a", 4, ⟨[2, 2], false⟩), ("b", 6, ⟨[6], false⟩)] ∧
    (⟨⟨∅, ⟨∅, ∅, []⟩, 0⟩, ∅⟩ : Node).run ContentService.firstCached 10 (fun _ => none)
        (turns ContentService.firstCached 10 (fun _ => none) ⟨∅, ⟨∅, ∅, []⟩, 0⟩
          [("a", 4, ⟨[2, 2], false⟩), ("b", 6, ⟨[6], false⟩)]) =
      some ⟨[("a", 4, ⟨[2, 2], false⟩), ("b", 6, ⟨[6], false⟩)].foldl
          (fun s c => s.handleNewContentAlone ContentService.firstCached 10 (fun _ => none)
            c.1 c.2.1 c.2.2) ⟨∅, ⟨∅, ∅, []⟩, 0⟩, ∅⟩ := by
  have h : InTurn ContentService.firstCached 10 (fun _ => none) ∅ ⟨∅, ⟨∅, ∅, []⟩, 0⟩
      [("a", 4, ⟨[2, 2], false⟩), ("b", 6, ⟨[6], false⟩)] := by
    simp only [InTurn]
    exact ⟨by decide, by decide, by decide, by decide, by decide, by decide, trivial⟩
  exact ⟨h, @turns_refine_sequential _ _ _ _ ⟨⟨∅, ⟨∅, ∅, []⟩, 0⟩, ∅⟩ h⟩

end Node

end Joystream
