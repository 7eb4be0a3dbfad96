import Mathlib.Data.List.Nodup
import NetTrap.Library.FirstSeen
import NetTrap.Shutdown.EventResolution

/-! What a shutdown reports of two sources: each event once. A merge always does, in the order
in which the identifiers are first seen; a source that is reported as it is repeats the
identifiers that it repeats.
-/

namespace NetTrap.Shutdown

open Rust Nbi HashMap List

abbrev Events := List NetworkBehaviorIndicator

def eventIds (events : Events) : List Text :=
  events.map normalizeEventId

theorem eventIds_cons (event : NetworkBehaviorIndicator) (events : Events)
    : eventIds (event :: events) = normalizeEventId event :: eventIds events :=
  rfl

/-- The report has the identifiers of both sources, each of them once, and no other ones. -/
def Conserves (jsonlEvents dbEvents report : Events) : Prop :=
  ∀ eventId, (eventIds report).count eventId
    = if eventId ∈ eventIds jsonlEvents ∨ eventId ∈ eventIds dbEvents then 1 else 0

/-- The first event with an identifier. -/
def firstWithId (events : Events) (eventId : Text) : Option NetworkBehaviorIndicator :=
  events.find? fun event => decide (normalizeEventId event = eventId)

/-- The content of the last event with an identifier. -/
def lastPayload (events : Events) (eventId : Text) : Option Text :=
  (events.reverse.find? fun event => decide (normalizeEventId event = eventId)).map
    (·.contentFingerprint)

/-- The sources have one event with different contents. -/
def Diverge (jsonlEvents dbEvents : Events) : Prop :=
  ∃ eventId left right, lastPayload jsonlEvents eventId = some left
    ∧ lastPayload dbEvents eventId = some right ∧ left ≠ right

variable {jsonlEvents dbEvents report : Events}

theorem conserves_iff
    : Conserves jsonlEvents dbEvents report ↔ (eventIds report).Nodup
        ∧ ∀ eventId, eventId ∈ eventIds report
            ↔ eventId ∈ eventIds jsonlEvents ∨ eventId ∈ eventIds dbEvents := by
  constructor
  · intro conserves
    refine ⟨nodup_iff_count_le_one.mpr fun eventId => ?_, fun eventId => ?_⟩
    · rw [conserves eventId]
      split <;> decide
    · rw [← count_pos_iff, conserves eventId]
      split
      · next known => simp [known]
      · next unknown => simp [unknown]
  · rintro ⟨nodup, known⟩ eventId
    rw [nodup.count]
    exact if_congr (known eventId) rfl rfl

variable {events : Events}

theorem mem_eventIdSet {eventId : Text} : eventId ∈ eventIdSet events ↔ eventId ∈ eventIds events :=
  mem_toFinset

/-- A source that has the identifiers of the other one is a report unless it repeats some. -/
theorem conserves_jsonl_iff (contained : eventIdSet dbEvents ⊆ eventIdSet jsonlEvents)
    : Conserves jsonlEvents dbEvents jsonlEvents ↔ (eventIds jsonlEvents).Nodup := by
  rw [conserves_iff, and_iff_left]
  intro eventId
  refine ⟨.inl, fun known => ?_⟩
  rcases known with inJsonl | inDb
  · exact inJsonl
  · exact mem_eventIdSet.mp (contained (mem_eventIdSet.mpr inDb))

theorem conserves_db_iff (contained : eventIdSet jsonlEvents ⊆ eventIdSet dbEvents)
    : Conserves jsonlEvents dbEvents dbEvents ↔ (eventIds dbEvents).Nodup := by
  rw [conserves_iff, and_iff_left]
  intro eventId
  refine ⟨.inr, fun known => ?_⟩
  rcases known with inJsonl | inDb
  · exact mem_eventIdSet.mp (contained (mem_eventIdSet.mpr inJsonl))
  · exact inDb

/-! Merging. -/

/-- The merged events have distinct identifiers, which are those that were seen. -/
structure Merging.Inv (state : Merging) : Prop where
  nodup : (eventIds state.merged).Nodup
  seen : ∀ eventId, eventId ∈ state.seen ↔ eventId ∈ eventIds state.merged

variable {pick : NetworkBehaviorIndicator → NetworkBehaviorIndicator} {state : Merging}

/-- A new identifier is appended, so that the identifiers are in the order of their first
events.
-/
theorem Merging.Inv.mergeStep {event earlier} (inv : state.Inv)
    (ids : eventIds state.merged = earlier.eraseDups)
    (samePick : normalizeEventId (pick event) = normalizeEventId event)
    : (mergeStep pick state event).Inv ∧ eventIds (mergeStep pick state event).merged
        = (earlier ++ [normalizeEventId event]).eraseDups := by
  have known : normalizeEventId event ∈ state.seen ↔ normalizeEventId event ∈ earlier := by
    rw [inv.seen, ids, mem_eraseDups]
  rw [Shutdown.mergeStep]
  split
  · next seen => exact ⟨inv, by rw [FirstSeen.eraseDups_concat_of_mem (known.mp seen), ids]⟩
  · next fresh =>
    have absent : normalizeEventId event ∉ eventIds state.merged := fun member =>
      fresh ((inv.seen _).mpr member)
    have appended : eventIds (state.merged ++ [pick event])
        = eventIds state.merged ++ [normalizeEventId event] := by
      simp [eventIds, samePick]
    rw [FirstSeen.eraseDups_concat_of_not_mem (mt known.mpr fresh), ← ids]
    refine ⟨⟨?_, fun eventId => ?_⟩, appended⟩
    · rw [appended]
      exact nodup_append_comm.mp (nodup_cons.mpr ⟨absent, inv.nodup⟩)
    · rw [appended, Finset.mem_insert, mem_append, mem_singleton, inv.seen, or_comm]

/-- Whole sources. Witness: induction on the events, one step each. -/
theorem Merging.Inv.foldl {earlier} (inv : state.Inv)
    (ids : eventIds state.merged = earlier.eraseDups) (events : Events)
    (samePick : ∀ event, normalizeEventId (pick event) = normalizeEventId event)
    : (events.foldl (Shutdown.mergeStep pick) state).Inv
      ∧ eventIds (events.foldl (Shutdown.mergeStep pick) state).merged
        = (earlier ++ eventIds events).eraseDups := by
  induction events generalizing state earlier with
  | nil => exact ⟨inv, by simpa [eventIds] using ids⟩
  | cons event rest ih =>
    obtain ⟨stepInv, stepIds⟩ := inv.mergeStep ids (samePick event)
    have whole := ih stepInv stepIds
    rwa [append_assoc] at whole

/-- A merge adds the copy of the first event with an identifier that was not seen. -/
theorem mem_foldl_mergeStep {event} (member : event ∈ (events.foldl (mergeStep pick) state).merged)
    : event ∈ state.merged ∨ ∃ original, normalizeEventId original ∉ state.seen
          ∧ firstWithId events (normalizeEventId original) = some original
          ∧ pick original = event := by
  induction events generalizing state with
  | nil => exact .inl member
  | cons head rest ih =>
    have skip {original : NetworkBehaviorIndicator}
        (other : normalizeEventId head ≠ normalizeEventId original)
        : firstWithId (head :: rest) (normalizeEventId original)
          = firstWithId rest (normalizeEventId original) := by
      simp [firstWithId, other]
    rcases ih member with before | ⟨original, unseen, first, copied⟩
    · rw [mergeStep] at before
      split at before
      · exact .inl before
      · next fresh =>
        rcases mem_append.mp before with before | added
        · exact .inl before
        · refine .inr ⟨head, fresh, ?_, (mem_singleton.mp added).symm⟩
          simp [firstWithId]
    · rw [mergeStep] at unseen
      split at unseen
      · next seen =>
        have other : normalizeEventId head ≠ normalizeEventId original := fun same =>
          unseen (same ▸ seen)
        exact .inr ⟨original, unseen, (skip other).trans first, copied⟩
      · rw [Finset.mem_insert, not_or] at unseen
        exact .inr ⟨original, unseen.2, (skip (Ne.symm unseen.1)).trans first, copied⟩

theorem firstWithId_reverse_isSome {eventId : Text}
    : (firstWithId events.reverse eventId).isSome ↔ eventId ∈ eventIds events := by
  rw [firstWithId, find?_isSome, eventIds, mem_map]
  simp

/-- The database is looked up by identifier; its last event with one counts. -/
theorem get_dbEventsById (dbEvents : Events) (eventId : Text)
    : (fromPairs (dbEvents.map fun event => (normalizeEventId event, event))).get eventId
      = firstWithId dbEvents.reverse eventId := by
  rw [get_fromPairs, firstWithId, ← map_reverse, find?_map, Option.map_map]
  exact congrFun Option.map_id _

/-- The copy in the database has the identifier it was looked up with. -/
theorem pick_eventId (dbEvents : Events) (preferDbForShared : Bool)
    (event : NetworkBehaviorIndicator)
    : normalizeEventId (if preferDbForShared then
          ((fromPairs (dbEvents.map fun event => (normalizeEventId event, event))).get
            (normalizeEventId event)).getD event
        else event)
      = normalizeEventId event := by
  rw [get_dbEventsById]
  split
  · cases found : firstWithId dbEvents.reverse (normalizeEventId event) with
    | none => rfl
    | some copy =>
      have sameId := find?_some found
      exact of_decide_eq_true sameId
  · rfl

/-- The two passes of a merge. -/
theorem mergeEventSources_passes (jsonlEvents dbEvents : Events) {state : Merging}
    (samePick : ∀ event, normalizeEventId (pick event) = normalizeEventId event)
    (jsonl : jsonlEvents.foldl (mergeStep pick) ⟨[], ∅⟩ = state)
    : (∀ eventId, eventId ∈ state.seen ↔ eventId ∈ eventIds jsonlEvents)
      ∧ (dbEvents.foldl (mergeStep id) state).Inv
      ∧ eventIds (dbEvents.foldl (mergeStep id) state).merged
        = (eventIds jsonlEvents ++ eventIds dbEvents).eraseDups := by
  subst jsonl
  have start : Merging.Inv ⟨[], ∅⟩ := ⟨nodup_nil, by simp [eventIds]⟩
  have nothing : eventIds [] = ([] : List Text).eraseDups := rfl
  obtain ⟨inv, ids⟩ := start.foldl nothing jsonlEvents samePick
  refine ⟨fun eventId => ?_, inv.foldl ids dbEvents fun _ => rfl⟩
  rw [inv.seen, ids, mem_eraseDups, nil_append]

theorem conserves_mergeEventSources (preferDbForShared : Bool)
    : Conserves jsonlEvents dbEvents
        (mergeEventSources jsonlEvents dbEvents preferDbForShared) := by
  obtain ⟨-, inv, ids⟩ :=
    mergeEventSources_passes jsonlEvents dbEvents (pick_eventId dbEvents preferDbForShared) rfl
  rw [conserves_iff]
  refine ⟨inv.nodup, fun eventId => ?_⟩
  rw [mergeEventSources, ids, mem_eraseDups, mem_append]

/-- A merge reports the identifiers of the JSONL events as they are first seen there, and then
those that only the database has; of an event in both it reports the last copy of the database
or the first one of the JSONL events.
-/
theorem mergeEventSources_ordered (jsonlEvents dbEvents : Events) (preferDbForShared : Bool)
    : Conserves jsonlEvents dbEvents (mergeEventSources jsonlEvents dbEvents preferDbForShared)
      ∧ eventIds (mergeEventSources jsonlEvents dbEvents preferDbForShared)
        = (eventIds jsonlEvents).eraseDups
          ++ ((eventIds dbEvents).filter (· ∉ eventIds jsonlEvents)).eraseDups
      ∧ ∀ event ∈ mergeEventSources jsonlEvents dbEvents preferDbForShared,
          normalizeEventId event ∈ eventIds jsonlEvents →
          normalizeEventId event ∈ eventIds dbEvents →
          (if preferDbForShared then firstWithId dbEvents.reverse (normalizeEventId event)
            else firstWithId jsonlEvents (normalizeEventId event))
          = some event := by
  have samePick := pick_eventId dbEvents preferDbForShared
  obtain ⟨jsonlSeen, -, ids⟩ := mergeEventSources_passes jsonlEvents dbEvents samePick rfl
  refine ⟨conserves_mergeEventSources preferDbForShared, ?_, fun event member inJsonl inDb => ?_⟩
  · rw [mergeEventSources, ids, List.eraseDups_append]
    simp [List.removeAll]
  rcases mem_foldl_mergeStep member with shared | ⟨original, unseen, -, rfl⟩
  · rcases mem_foldl_mergeStep shared with none | ⟨original, -, first, copied⟩
    · cases none
    have sameId : normalizeEventId event = normalizeEventId original :=
      copied ▸ samePick original
    rw [get_dbEventsById] at copied
    rw [sameId] at inDb ⊢
    cases preferDbForShared with
    | false => exact first.trans (congrArg some copied)
    | true =>
      obtain ⟨copy, last⟩ := Option.isSome_iff_exists.mp (firstWithId_reverse_isSome.mpr inDb)
      rw [last] at copied
      exact last.trans (congrArg some copied)
  · exact absurd ((jsonlSeen _).mpr inJsonl) unseen

/-! Duplicates and payloads. -/

theorem duplicateLoop_eq_false {seen}
    : duplicateLoop seen events = false
      ↔ (eventIds events).Nodup ∧ ∀ eventId ∈ eventIds events, eventId ∉ seen := by
  induction events generalizing seen with
  | nil => simp [duplicateLoop, eventIds]
  | cons event rest ih =>
    rw [duplicateLoop, Bool.or_eq_false_iff, decide_eq_false_iff_not, ih, eventIds_cons,
      nodup_cons, forall_mem_cons]
    constructor
    · rintro ⟨fresh, nodup, later⟩
      refine ⟨⟨fun member => ?_, nodup⟩, fresh, fun eventId member seenBefore => ?_⟩
      · exact later _ member (Finset.mem_insert_self _ _)
      · exact later eventId member (Finset.mem_insert_of_mem seenBefore)
    · rintro ⟨⟨distinct, nodup⟩, fresh, later⟩
      refine ⟨fresh, nodup, fun eventId member seenBefore => ?_⟩
      rcases Finset.mem_insert.mp seenBefore with rfl | before
      · exact distinct member
      · exact later eventId member before

theorem hasDuplicateEventIds_iff
    : hasDuplicateEventIds events = true ↔ ¬ (eventIds events).Nodup := by
  rw [← Bool.not_eq_false, hasDuplicateEventIds, duplicateLoop_eq_false, and_iff_left]
  exact fun _ _ => Finset.notMem_empty _

theorem get_eventPayloadMap (events : Events) (eventId : Text)
    : (eventPayloadMap events).get eventId = lastPayload events eventId := by
  rw [eventPayloadMap, get_fromPairs, lastPayload, ← map_reverse, find?_map, Option.map_map]
  rfl

theorem lastPayload_isSome {eventId : Text}
    : (lastPayload events eventId).isSome ↔ eventId ∈ eventIds events := by
  rw [lastPayload, Option.isSome_map]
  exact firstWithId_reverse_isSome

theorem countPayloadDivergences_pos
    : 0 < countPayloadDivergences (eventPayloadMap jsonlEvents) (eventPayloadMap dbEvents)
      ↔ Diverge jsonlEvents dbEvents := by
  rw [countPayloadDivergences, length_pos_iff_exists_mem]
  constructor
  · rintro ⟨⟨eventId, left⟩, member⟩
    obtain ⟨inLeft, differs⟩ := mem_filter.mp member
    rw [mem_toPairs, get_eventPayloadMap] at inLeft
    rw [get_eventPayloadMap, Option.any_eq_true] at differs
    obtain ⟨right, inRight, distinct⟩ := differs
    exact ⟨eventId, left, right, inLeft, inRight, Ne.symm (bne_iff_ne.mp distinct)⟩
  · rintro ⟨eventId, left, right, inLeft, inRight, distinct⟩
    refine ⟨(eventId, left), mem_filter.mpr ⟨?_, ?_⟩⟩
    · rw [mem_toPairs, get_eventPayloadMap, inLeft]
    · rw [get_eventPayloadMap, inRight]
      simpa using Ne.symm distinct

/-- With the same identifiers, the maps of payloads differ only where the sources diverge. -/
theorem same_eventPayloadMap (sameIds : eventIdSet jsonlEvents = eventIdSet dbEvents)
    : (eventPayloadMap jsonlEvents).same (eventPayloadMap dbEvents) = true
      ↔ ¬ Diverge jsonlEvents dbEvents := by
  rw [same_iff]
  simp only [get_eventPayloadMap]
  constructor
  · rintro agree ⟨eventId, left, right, inLeft, inRight, distinct⟩
    rw [agree, inRight] at inLeft
    exact distinct (Option.some.inj inLeft).symm
  · intro converge eventId
    have known : (lastPayload jsonlEvents eventId).isSome
        ↔ (lastPayload dbEvents eventId).isSome := by
      rw [lastPayload_isSome, lastPayload_isSome, ← mem_eventIdSet, ← mem_eventIdSet, sameIds]
    cases inLeft : lastPayload jsonlEvents eventId with
    | none =>
      cases inRight : lastPayload dbEvents eventId with
      | none => rfl
      | some right => simp [inLeft, inRight] at known
    | some left =>
      cases inRight : lastPayload dbEvents eventId with
      | none => simp [inLeft, inRight] at known
      | some right =>
        by_contra distinct
        exact converge ⟨eventId, left, right, inLeft, inRight, fun same => distinct (same ▸ rfl)⟩

/-- Sources that match event by event have the same identifiers and contents. -/
theorem of_eventsMatch (matching : eventsMatch jsonlEvents dbEvents = true)
    : eventIdSet jsonlEvents = eventIdSet dbEvents ∧ ¬ Diverge jsonlEvents dbEvents := by
  have pairs : jsonlEvents.map (fun event => (normalizeEventId event, event.contentFingerprint))
      = dbEvents.map fun event => (normalizeEventId event, event.contentFingerprint) := by
    simp only [eventsMatch, Bool.and_eq_true, beq_iff_eq, all_eq_true] at matching
    apply ext_getElem
    · simpa using matching.1
    · intro index inLeft inRight
      rw [length_map] at inLeft inRight
      have here := matching.2 (jsonlEvents[index], dbEvents[index])
        (mem_iff_getElem.mpr ⟨index, by simp [inLeft, inRight], getElem_zip⟩)
      rw [getElem_map, getElem_map, here.1, here.2]
  have sameIds : eventIdSet jsonlEvents = eventIdSet dbEvents := by
    have ids := congrArg (map Prod.fst) pairs
    rw [map_map, map_map] at ids
    exact congrArg toFinset ids
  refine ⟨sameIds, (same_eventPayloadMap sameIds).mp ?_⟩
  rw [same_iff, eventPayloadMap, eventPayloadMap, pairs]
  exact fun _ => rfl

/-! Reports. -/

/-- One of two sources is reported as it is, with the identifiers that it repeats: the JSONL
events if they contain those of the database, and the database if it contains more.
-/
def ReportsRepeated (jsonlEvents dbEvents : Events) (hadIntegritySignals : Bool) : Prop :=
  jsonlEvents ≠ [] ∧ dbEvents ≠ []
    ∧ (eventIdSet jsonlEvents = eventIdSet dbEvents ∧ Diverge jsonlEvents dbEvents
          ∧ hadIntegritySignals = false ∧ ¬ (eventIds jsonlEvents).Nodup
        ∨ eventIdSet dbEvents ⊂ eventIdSet jsonlEvents
          ∧ (Diverge jsonlEvents dbEvents → hadIntegritySignals = false)
          ∧ ¬ (eventIds jsonlEvents).Nodup
        ∨ eventIdSet jsonlEvents ⊂ eventIdSet dbEvents ∧ ¬ Diverge jsonlEvents dbEvents
          ∧ ¬ (eventIds dbEvents).Nodup)

theorem nodup_of_noDuplicates (unique : ¬ hasDuplicateEventIds events = true)
    : (eventIds events).Nodup :=
  not_not.mp fun repeated => unique (hasDuplicateEventIds_iff.mpr repeated)

/-- A report is complete and without repetitions, unless a source that repeats identifiers is
reported as it is. Witness: one case per branch; those that merge, or that look for duplicates
before they report a source, always conserve the events.
-/
theorem resolveShutdownEvents_conserves_iff (ctx : ShutdownContext)
    : Conserves ctx.jsonlEvents ctx.dbEvents (resolveShutdownEvents ctx)
      ↔ ¬ ReportsRepeated ctx.jsonlEvents ctx.dbEvents ctx.hadIntegritySignals := by
  rw [resolveShutdownEvents]
  generalize ctx.jsonlEvents = jsonlEvents
  generalize ctx.dbEvents = dbEvents
  generalize ctx.hadIntegritySignals = hadIntegritySignals
  have merged (preferDb : Bool)
      : Conserves jsonlEvents dbEvents (mergeEventSources jsonlEvents dbEvents preferDb) :=
    conserves_mergeEventSources preferDb
  by_cases noJsonl : jsonlEvents = []
  · refine iff_of_true ?_ fun repeated => repeated.1 noJsonl
    rw [if_pos (by simp [noJsonl])]
    split
    · exact merged false
    · next unique =>
      have contained : eventIdSet jsonlEvents ⊆ eventIdSet dbEvents := by
        simp [noJsonl, eventIdSet]
      exact (conserves_db_iff contained).mpr (nodup_of_noDuplicates unique)
  rw [if_neg (by simp [noJsonl])]
  by_cases noDb : dbEvents = []
  · refine iff_of_true ?_ fun repeated => repeated.2.1 noDb
    rw [if_pos (by simp [noDb])]
    split
    · exact merged false
    · next unique =>
      have contained : eventIdSet dbEvents ⊆ eventIdSet jsonlEvents := by
        simp [noDb, eventIdSet]
      exact (conserves_jsonl_iff contained).mpr (nodup_of_noDuplicates unique)
  rw [if_neg (by simp [noDb])]
  by_cases sameIds : eventIdSet jsonlEvents = eventIdSet dbEvents
  · have contained : eventIdSet dbEvents ⊆ eventIdSet jsonlEvents := sameIds.superset
    have repeated : ReportsRepeated jsonlEvents dbEvents hadIntegritySignals
        ↔ Diverge jsonlEvents dbEvents ∧ hadIntegritySignals = false
          ∧ ¬ (eventIds jsonlEvents).Nodup := by
      simp [ReportsRepeated, noJsonl, noDb, sameIds]
    rw [repeated]
    by_cases diverge : Diverge jsonlEvents dbEvents
    · rw [if_neg fun matching => (of_eventsMatch matching).2 diverge, if_pos sameIds,
        if_neg fun same => (same_eventPayloadMap sameIds).mp same diverge]
      cases hadIntegritySignals with
      | true => simpa using merged true
      | false => simp [diverge, conserves_jsonl_iff contained]
    · refine iff_of_true ?_ fun repeated => diverge repeated.1
      -- Both branches look for duplicates before they report the JSONL events.
      have jsonlUnique (unique : ¬ hasDuplicateEventIds jsonlEvents = true)
          : Conserves jsonlEvents dbEvents jsonlEvents :=
        (conserves_jsonl_iff contained).mpr (nodup_of_noDuplicates unique)
      split
      · split
        · exact merged true
        · next unique => exact jsonlUnique fun duplicates => unique (by simp [duplicates])
      · rw [if_pos ((same_eventPayloadMap sameIds).mpr diverge)]
        split
        · exact merged true
        · next calm => exact jsonlUnique fun duplicates => calm (by simp [duplicates])
  · rw [if_neg fun matching => sameIds (of_eventsMatch matching).1, if_neg sameIds]
    by_cases inDb : eventIdSet jsonlEvents ⊆ eventIdSet dbEvents
    · have strict : eventIdSet jsonlEvents ⊂ eventIdSet dbEvents := inDb.ssubset_of_ne sameIds
      have repeated : ReportsRepeated jsonlEvents dbEvents hadIntegritySignals
          ↔ ¬ Diverge jsonlEvents dbEvents ∧ ¬ (eventIds dbEvents).Nodup := by
        simp [ReportsRepeated, noJsonl, noDb, sameIds, strict, strict.asymm]
      rw [if_pos inDb, repeated]
      by_cases diverge : Diverge jsonlEvents dbEvents
      · rw [if_pos (countPayloadDivergences_pos.mpr diverge)]
        refine iff_of_true ?_ fun repeated => repeated.1 diverge
        split
        · exact merged true
        · exact merged false
      · rw [if_neg fun count => diverge (countPayloadDivergences_pos.mp count)]
        simp [diverge, conserves_db_iff inDb]
    · rw [if_neg inDb]
      by_cases inJsonl : eventIdSet dbEvents ⊆ eventIdSet jsonlEvents
      · have strict : eventIdSet dbEvents ⊂ eventIdSet jsonlEvents :=
          inJsonl.ssubset_of_ne (Ne.symm sameIds)
        have repeated : ReportsRepeated jsonlEvents dbEvents hadIntegritySignals
            ↔ (Diverge jsonlEvents dbEvents → hadIntegritySignals = false)
              ∧ ¬ (eventIds jsonlEvents).Nodup := by
          simp [ReportsRepeated, noJsonl, noDb, sameIds, strict, strict.asymm]
        rw [if_pos inJsonl, repeated]
        by_cases diverge : Diverge jsonlEvents dbEvents
        · rw [if_pos (countPayloadDivergences_pos.mpr diverge)]
          cases hadIntegritySignals with
          | true => simpa [diverge] using merged true
          | false => simp [diverge, conserves_jsonl_iff inJsonl]
        · rw [if_neg fun count => diverge (countPayloadDivergences_pos.mp count)]
          simp [diverge, conserves_jsonl_iff inJsonl]
      · rw [if_neg inJsonl]
        refine iff_of_true (merged false) ?_
        rintro ⟨-, -, same | jsonlMore | dbMore⟩
        · exact sameIds same.1
        · exact inJsonl jsonlMore.1.subset
        · exact inDb dbMore.1.subset

section Samples

def sampleReported (eventId : String) : NetworkBehaviorIndicator :=
  ⟨.lit eventId, .lit "2026-01-01T00:00:00Z", .lit "dns", .lit "UDP", .lit "10.0.0.2", 40000,
    .lit "10.0.0.1", 53, none, none, .empty⟩

/-- The JSONL file has one event twice and another one that the database lacks. -/
def sampleShutdown : ShutdownContext :=
  ⟨some ⟨[sampleReported "event-1", sampleReported "event-1", sampleReported "event-2"], 0, none⟩,
    some 0, some (.ok [sampleReported "event-1"])⟩

/-- The JSONL events are reported as they are, one of them twice. -/
theorem resolveShutdownEvents_repeats
    : eventIds (resolveShutdownEvents sampleShutdown)
        = [.lit "event-1", .lit "event-1", .lit "event-2"]
      ∧ ¬ Conserves sampleShutdown.jsonlEvents sampleShutdown.dbEvents
          (resolveShutdownEvents sampleShutdown) := by
  have report : eventIds (resolveShutdownEvents sampleShutdown)
      = [.lit "event-1", .lit "event-1", .lit "event-2"] := by
    decide +kernel
  refine ⟨report, fun conserves => ?_⟩
  have once := (conserves_iff.mp conserves).1
  rw [report] at once
  revert once
  decide +kernel

end Samples

end NetTrap.Shutdown
