import Mira.Events.Reopen

/-!
Recovery of a log that was cut off at any byte. Whatever the cut leaves of the
format transition is discarded with it; behind the transition the whole records
are kept, the last one also without its terminator, and a part of a record is
discarded. The recovered store is faithful, so appending to it and reopening it
works as on any other store.
-/

namespace Mira.Events
open Mira Bytes

theorem Accounts.part {a c : StoreIndex} {xs ys : List Bytes} (synced : a.Synced)
    (v2 : a.v2 = true) (nonblank : ∀ text ∈ xs, text ≠ []) (accounts : Accounts a (xs ++ ys) c) :
    ∃ b added, b.v2 = true ∧ b.Synced ∧ Accounts a xs b ∧ Accounts b ys c ∧
      b.memory.events = a.memory.events ++ added ∧ added.length = xs.length := by
  induction xs generalizing a with
  | nil => exact ⟨a, [], v2, synced, .done a, accounts, (List.append_nil _).symm, rfl⟩
  | cons text xs ih =>
      generalize whole : text :: xs ++ ys = texts at accounts
      cases accounts with
      | done => cases whole
      | blank verdict =>
          obtain ⟨rfl, _⟩ := List.cons.inj whole
          exact absurd (readLine_blank verdict) (nonblank text (by simp))
      | transition verdict =>
          have marked := readLine_header verdict
          rw [v2] at marked
          cases marked
      | record verdict rest =>
          obtain ⟨rfl, rfl⟩ := List.cons.inj whole
          obtain ⟨record, _, indexed⟩ := readLine_record verdict
          obtain ⟨fits, rfl⟩ := StoreIndex.indexRecord_indexable synced indexed
          obtain ⟨b, added, v2', synced', first, second, events, count⟩ :=
            ih (synced.extend fits.toFits _) v2 (fun t present => nonblank t (by simp [present])) rest
          refine ⟨b, a.memory.stamped record.request record.timestamp
            (StoreIndex.recordOrigin record) :: added, v2', synced', .record verdict first, second,
            ?_, congrArg Nat.succ count⟩
          rw [events, StoreIndex.extend_events, List.append_assoc]
          rfl

namespace FileEventStore

/-- Recovery with repair yields a store that can be written to and holds these
events. -/
structure Recovers (maxEvents : UInt64) (log : Bytes) (events : List EventEnvelope) : Prop where
  status : ((create maxEvents (some log)).recover).2.status = .clean ∨
    ((create maxEvents (some log)).recover).2.status = .tailTruncated
  writable : ((create maxEvents (some log)).recover).1.readOnly = false
  events : ((create maxEvents (some log)).recover).1.index.memory.events.map
    EventEnvelope.durable = events

section Recovers
variable {maxEvents : UInt64} {log : Bytes}

theorem recovers_accounted (index : StoreIndex)
    (accounts : Accounts (freshIndex maxEvents) (logTexts log) index) :
    Recovers maxEvents log (index.memory.events.map EventEnvelope.durable) := by
  obtain ⟨scan, result, rebuilt, _⟩ := recover_clean maxEvents log {} index accounts
  refine ⟨.inl ?_, ?_, ?_⟩
  · rw [result]; rfl
  · rw [result]; rfl
  · rw [result, ← rebuilt]; rfl

theorem recovers_malformed (scan : Scanning)
    (result : (create maxEvents (some log)).recover =
      (create maxEvents (some log)).malformed {} scan false) :
    Recovers maxEvents log (scan.index.memory.events.map EventEnvelope.durable) := by
  refine ⟨.inr ?_, ?_, ?_⟩ <;> rw [result] <;> rfl

variable {part : Bytes}

theorem recovers_torn (strict : Bool) {lines : List LogLine} {index : StoreIndex}
    (read : getLines log = lines ++ [⟨part, false⟩])
    (accounts : Accounts (freshIndex maxEvents) (lines.map lineText) index)
    (verdict : readLine index (textOf part) = .incomplete strict) :
    Recovers maxEvents log (index.memory.events.map EventEnvelope.durable) := by
  obtain ⟨scan, rfl, _, _, _, passed⟩ :=
    accounts.recoverLines { index := freshIndex maxEvents } lines [⟨part, false⟩] rfl rfl rfl
  refine recovers_malformed (scan.advance ⟨part, false⟩) ?_
  change (create maxEvents (some log)).recoverLines {} { index := freshIndex maxEvents }
    (getLines log) = _
  have last : readLine scan.index (lineText ⟨part, false⟩) = .incomplete strict := verdict
  rw [read, passed, recoverLines.eq_def]
  simp only [last, Bool.and_false, List.isEmpty_nil, Bool.not_true, Bool.or_false]

theorem recovers_header {terminated : Bool}
    (read : getLines log = [⟨LogWire.header, terminated⟩]) : Recovers maxEvents log [] := by
  have first : readLine (freshIndex maxEvents) (lineText ⟨LogWire.header, terminated⟩) =
      .header := readLine_header_line _ rfl
  refine recovers_malformed
    (Scanning.advance { index := freshIndex maxEvents } ⟨LogWire.header, terminated⟩) ?_
  change (create maxEvents (some log)).recoverLines {} { index := freshIndex maxEvents }
    (getLines log) = _
  rw [read, recoverLines.eq_def]
  simp only [first]

theorem recovers_marker (read : getLines log = [⟨LogWire.header, true⟩, ⟨part, false⟩])
    (torn : textOf part <+: LogWire.records) (proper : textOf part ≠ LogWire.records) :
    Recovers maxEvents log [] := by
  have first : readLine (freshIndex maxEvents) (lineText ⟨LogWire.header, true⟩) = .header :=
    readLine_header_line _ rfl
  have proper' : lineText ⟨part, false⟩ ≠ LogWire.records := proper
  have torn' : (lineText ⟨part, false⟩).isPrefixOf LogWire.records = true :=
    List.isPrefixOf_iff_prefix.mpr torn
  refine recovers_malformed ((Scanning.advance { index := freshIndex maxEvents }
    ⟨LogWire.header, true⟩).advance ⟨part, false⟩) ?_
  change (create maxEvents (some log)).recoverLines {} { index := freshIndex maxEvents }
    (getLines log) = _
  rw [read, recoverLines.eq_def]
  simp only [first]
  rw [if_pos proper', if_pos torn']
  rfl

end Recovers

theorem readLine_header_part (maxEvents : UInt64) (part : Bytes) (torn : part <+: LogWire.header)
    (some_ : part ≠ []) (proper : part ≠ LogWire.header) :
    readLine (freshIndex maxEvents) part = .incomplete false := by
  obtain ⟨first, rest, rfl⟩ := List.exists_cons_of_ne_nil some_
  have letter : first = 77 := by
    obtain ⟨more, whole⟩ := torn
    exact (List.cons.inj whole).1
  subst letter
  have legacy : LogWire.decodeLegacy (77 :: rest) =
      .error (storeError .invalidArgument "legacy event record is incomplete") := rfl
  unfold readLine
  rw [if_neg some_]
  split
  · exact if_pos ⟨rfl, proper, List.isPrefixOf_iff_prefix.mpr torn⟩
  · rw [if_neg (by simp [freshIndex]), if_neg (by simp [freshIndex]), legacy]
    rfl

theorem readLine_record_part {index : StoreIndex} (v2 : index.v2 = true) {record : LogWire.Record}
    (writable : LogWire.Writable record) (part : Bytes) (torn : part <+: LogWire.encode record)
    (some_ : part ≠ []) (proper : part ≠ LogWire.encode record) :
    readLine index part = .incomplete true := by
  obtain ⟨more, whole⟩ := torn
  have left : more ≠ [] := by
    rintro rfl
    exact proper (by rw [← whole, List.append_nil])
  obtain ⟨message, decoded⟩ := LogWire.decodeV2_proper_prefix record writable part more whole left
  obtain ⟨first, rest, rfl⟩ := List.exists_cons_of_ne_nil some_
  have letter : first = 69 := by
    rw [LogWire.encode_eq] at whole
    exact (List.cons.inj whole).1
  subst letter
  unfold readLine
  rw [if_neg some_, if_neg (by rw [Bool.not_eq_true]; rfl), if_neg (by simp [v2]), if_pos v2,
    decoded]
  exact (if_pos rfl).trans (by rw [v2])

section Cut
variable {maxEvents : UInt64} {events : List EventEnvelope} {index : StoreIndex}

/-- A log of these events, with an index it accounts for. -/
structure Holds (maxEvents : UInt64) (events : List EventEnvelope) (index : StoreIndex) :
    Prop where
  writable : ∀ event ∈ events, LogWire.Writable event.record
  accounts : Accounts (freshIndex maxEvents) (logLines events) index
  same : index.memory.events.map EventEnvelope.durable = events.map EventEnvelope.durable

theorem line_nonblank (event : EventEnvelope) : event.line ≠ [] := by
  rw [EventEnvelope.line, LogWire.encode_eq]
  exact List.cons_ne_nil _ _

theorem lines_printable (writable : ∀ event ∈ events, LogWire.Writable event.record)
    (some_ : events ≠ []) :
    ∀ text ∈ LogWire.header :: LogWire.records :: events.map EventEnvelope.line,
      Printable text := by
  obtain ⟨first, rest, rfl⟩ := List.exists_cons_of_ne_nil some_
  have fixed := appendedTexts_printable false (writable first (by simp))
  intro text present
  rcases List.mem_cons.mp present with rfl | later
  · exact fixed _ (by simp [appendedTexts])
  · rcases List.mem_cons.mp later with rfl | line
    · exact fixed _ (by simp [appendedTexts])
    · obtain ⟨event, member, rfl⟩ := List.mem_map.mp line
      exact LogWire.encode_printable _ (writable event member)

theorem Holds.take (holds : Holds maxEvents events index) (some_ : events ≠ []) (count : Nat) :
    ∃ b, b.v2 = true ∧ b.Synced ∧
      Accounts (freshIndex maxEvents)
        (LogWire.header :: LogWire.records :: (events.take count).map EventEnvelope.line) b ∧
      b.memory.events.map EventEnvelope.durable =
        (events.take count).map EventEnvelope.durable := by
  have accounts := holds.accounts
  obtain ⟨first, rest, shape⟩ := List.exists_cons_of_ne_nil some_
  have lines : logLines events =
      LogWire.header :: LogWire.records :: events.map EventEnvelope.line := by rw [shape]; rfl
  have opening := readLine_header_line (freshIndex maxEvents) rfl
  rw [lines] at accounts
  cases accounts with
  | blank verdict => rw [opening] at verdict; cases verdict
  | record verdict => rw [opening] at verdict; cases verdict
  | transition _ body =>
      have nonblank (chosen : List EventEnvelope) :
          ∀ text ∈ chosen.map EventEnvelope.line, text ≠ [] := by
        intro text present
        obtain ⟨event, _, rfl⟩ := List.mem_map.mp present
        exact line_nonblank event
      rw [← List.take_append_drop count events, List.map_append] at body
      obtain ⟨b, added, v2, synced, before, after, held, length⟩ :=
        body.part (freshIndex_synced maxEvents).marked rfl (nonblank _)
      refine ⟨b, v2, synced, .transition opening before, ?_⟩
      -- What the remaining lines add comes behind the events accounted for so far.
      rw [← List.append_nil ((events.drop count).map EventEnvelope.line)] at after
      obtain ⟨c, more, _, _, _, done, later, _⟩ := after.part synced v2 (nonblank _)
      cases done with
      | done =>
          have whole := holds.same
          rw [later, List.map_append] at whole
          have own : b.memory.events = added := held
          have taken := congrArg (List.take (added.map EventEnvelope.durable).length) whole
          rw [own, List.take_left, List.length_map, length, List.length_map, ← List.map_take,
            List.length_take] at taken
          rw [own, taken]
          congr 1
          exact List.take_eq_take_min.symm

/-- The number of records that lie wholly within the first bytes of a log. -/
def Within (events : List EventEnvelope) (count bytes : Nat) : Prop :=
  (count = 0 ∨ (logBytes (events.take count)).length ≤ bytes + 1) ∧
    (count < events.length → bytes + 1 < (logBytes (events.take (count + 1))).length)

def recordBytes (events : List EventEnvelope) (count : Nat) : Nat :=
  (Lines.terminate 10 ((events.take count).map EventEnvelope.line)).length

variable (count : Nat)

theorem recordBytes_succ (more : count < events.length) :
    recordBytes events (count + 1) =
      recordBytes events count + (events[count].line.length + 1) := by
  rw [recordBytes, List.take_succ_eq_append_getElem more, List.map_append, Lines.terminate,
    List.flatMap_append, List.length_append]
  simp [recordBytes, Lines.terminate]

theorem length_logBytes_take (some_ : events ≠ []) :
    (logBytes (events.take (count + 1))).length = 36 + recordBytes events (count + 1) := by
  obtain ⟨first, rest, rfl⟩ := List.exists_cons_of_ne_nil some_
  have transition : LogWire.header.length = 16 ∧ LogWire.records.length = 18 := ⟨rfl, rfl⟩
  simp only [logBytes, recordBytes, List.take_succ_cons, logLines, Lines.terminate, List.map_cons,
    List.flatMap_cons, List.length_append, List.length_singleton]
  omega

theorem within_zero (some_ : events ≠ []) (bytes : Nat) (short : bytes < 36) :
    Within events 0 bytes := by
  refine ⟨.inl rfl, fun more => ?_⟩
  rw [length_logBytes_take 0 some_, recordBytes_succ 0 more]
  omega

theorem within_before (some_ : events ≠ []) (count part : Nat)
    (short : ∀ more : count < events.length, part < events[count].line.length) :
    Within events count (36 + recordBytes events count + part) := by
  constructor
  · cases count with
    | zero => exact .inl rfl
    | succ count =>
        rw [length_logBytes_take count some_]
        exact .inr (by omega)
  · intro more
    have bound := short more
    rw [length_logBytes_take count some_, recordBytes_succ count more]
    omega

theorem within_behind (more : count < events.length) :
    Within events (count + 1) (36 + recordBytes events count + events[count].line.length) := by
  have some_ : events ≠ [] := List.ne_nil_of_length_pos (by omega)
  constructor
  · rw [length_logBytes_take count some_, recordBytes_succ count more]
    exact .inr (by omega)
  · intro next
    rw [length_logBytes_take (count + 1) some_, recordBytes_succ (count + 1) next,
      recordBytes_succ count more]
    omega

variable {texts : List Bytes}

theorem getLines_terminate (printable : ∀ text ∈ texts, Printable text) (part : Bytes) :
    getLines (Lines.terminate 10 texts ++ part) =
      (texts.map fun text => ⟨text, true⟩) ++ getLines part :=
  Lines.split_terminate_append 10 texts part fun text present =>
    newline_not_mem (printable text present)

theorem lineText_printable (printable : ∀ text ∈ texts, Printable text) :
    (texts.map fun text => (⟨text, true⟩ : LogLine)).map lineText = texts := by
  rw [List.map_map]
  refine (List.map_congr_left fun text present => ?_).trans (List.map_id texts)
  exact textOf_printable (printable text present)

variable {part : Bytes}

theorem getLines_part (printable : Printable part) (some_ : part ≠ []) :
    getLines part = [⟨part, false⟩] :=
  Lines.split_last 10 part (newline_not_mem printable) some_

theorem printable_part {text : Bytes} (printable : Printable text) (torn : part <+: text) :
    Printable part :=
  fun b present => printable b (torn.subset present)

theorem transition_printable : Printable LogWire.header ∧ Printable LogWire.records :=
  ⟨printable_ascii _ (by decide), printable_ascii _ (by decide)⟩

theorem recovers_empty : Recovers maxEvents [] [] :=
  recovers_accounted (freshIndex maxEvents) (.done _)

theorem recovers_header_part (torn : part <+: LogWire.header) : Recovers maxEvents part [] := by
  by_cases some_ : part = []
  · rw [some_]
    exact recovers_empty
  · have printable := printable_part transition_printable.1 torn
    have read := getLines_part printable some_
    by_cases full : part = LogWire.header
    · rw [full] at read ⊢
      exact recovers_header read
    · have torn' : getLines part = [] ++ [⟨part, false⟩] := read
      refine recovers_torn false torn' (.done _) ?_
      rw [textOf_printable printable]
      exact readLine_header_part maxEvents part torn some_ full

theorem recovers_marker_part (torn : part <+: LogWire.records) :
    Recovers maxEvents (Lines.terminate 10 [LogWire.header] ++ part) [] := by
  have header : ∀ text ∈ [LogWire.header], Printable text := by
    intro text present
    rw [List.mem_singleton.mp present]
    exact transition_printable.1
  have read := getLines_terminate header part
  by_cases some_ : part = []
  · rw [some_] at read ⊢
    exact recovers_header read
  · have printable := printable_part transition_printable.2 torn
    rw [getLines_part printable some_] at read
    by_cases full : part = LogWire.records
    · refine recovers_accounted { freshIndex maxEvents with v2 := true } ?_
      rw [logTexts, read, full]
      exact .transition (readLine_header_line _ rfl) (.done _)
    · rw [← textOf_printable printable] at torn full
      exact recovers_marker read torn full

theorem Holds.record_part (holds : Holds maxEvents events index) (some_ : events ≠ [])
    (count : Nat) (part : Bytes)
    (torn : part <+: ((events.drop count).map EventEnvelope.line).headD []) :
    ∃ count', Recovers maxEvents
        (Lines.terminate 10
          (LogWire.header :: LogWire.records :: (events.take count).map EventEnvelope.line) ++ part)
        ((events.take count').map EventEnvelope.durable) ∧
      Within events count' (36 + recordBytes events count + part.length) := by
  have lines : ∀ text ∈ LogWire.header :: LogWire.records ::
      (events.take count).map EventEnvelope.line, Printable text := by
    intro text present
    refine lines_printable holds.writable some_ text ?_
    simp only [List.mem_cons, List.map_take] at present ⊢
    exact present.imp_right (Or.imp_right (List.take_subset _ _ ·))
  obtain ⟨b, v2, synced, accounts, kept⟩ := holds.take some_ count
  have read := getLines_terminate lines part
  by_cases empty : part = []
  · subst empty
    refine ⟨count, ?_, within_before some_ count 0 fun more => ?_⟩
    · rw [← kept]
      refine recovers_accounted _ ?_
      rw [logTexts, read, List.map_append, lineText_printable lines]
      exact (List.append_nil _).symm ▸ accounts
    · exact List.length_pos_iff.mpr (line_nonblank _)
  · have more : count < events.length := by
      by_contra behind
      rw [List.drop_eq_nil_of_le (by omega)] at torn
      exact empty (List.prefix_nil.mp torn)
    rw [List.drop_eq_getElem_cons more] at torn
    change part <+: events[count].line at torn
    have writable := holds.writable _ (List.getElem_mem more)
    have printable := printable_part (LogWire.encode_printable _ writable) torn
    rw [getLines_part printable empty] at read
    by_cases full : part = events[count].line
    · -- The record is whole, and only its terminator is missing.
      obtain ⟨b', _, _, accounts', kept'⟩ := holds.take some_ (count + 1)
      refine ⟨count + 1, ?_, full ▸ within_behind count more⟩
      rw [← kept']
      refine recovers_accounted _ ?_
      rw [logTexts, read, List.map_append, lineText_printable lines]
      rw [List.take_succ_eq_append_getElem more, List.map_append, List.map_singleton, ← full]
        at accounts'
      have own : lineText ⟨part, false⟩ = part := textOf_printable printable
      rw [List.map_singleton, own]
      exact accounts'
    · refine ⟨count, ?_, within_before some_ count part.length fun _ => ?_⟩
      · rw [← kept]
        refine recovers_torn true read (by rw [lineText_printable lines]; exact accounts) ?_
        rw [textOf_printable printable]
        exact readLine_record_part v2 writable part torn empty full
      · refine lt_of_le_of_ne torn.length_le fun same => full (torn.eq_of_length same)

theorem Holds.cut (holds : Holds maxEvents events index) (torn : Bytes)
    (isPrefix : torn <+: logBytes events) :
    ∃ count, Recovers maxEvents torn ((events.take count).map EventEnvelope.durable) ∧
      Within events count torn.length := by
  obtain ⟨whole, rest, part, lines, rfl, next⟩ := Lines.cut_terminate 10 _ torn isPrefix
  have transition : LogWire.header.length = 16 ∧ LogWire.records.length = 18 := ⟨rfl, rfl⟩
  by_cases some_ : events = []
  · rw [some_] at lines ⊢
    obtain ⟨rfl, rfl⟩ := List.append_eq_nil_iff.mp lines.symm
    rw [List.prefix_nil.mp next]
    exact ⟨0, recovers_empty, .inl rfl, fun more => by cases more⟩
  · have shape : logLines events =
        LogWire.header :: LogWire.records :: events.map EventEnvelope.line := by
      obtain ⟨first, later, rfl⟩ := List.exists_cons_of_ne_nil some_
      rfl
    rw [shape] at lines
    -- The cut is in the header, in the marker or in the records.
    rcases whole with _ | ⟨header, _ | ⟨marker, whole⟩⟩
    · rw [List.nil_append] at lines
      rw [← lines] at next
      have bound := next.length_le
      refine ⟨0, recovers_header_part next, within_zero some_ _ ?_⟩
      change part.length ≤ LogWire.header.length at bound
      change part.length < 36
      omega
    · obtain ⟨rfl, behind⟩ := List.cons.inj lines
      rw [← show LogWire.records :: events.map EventEnvelope.line = rest from behind] at next
      have bound := next.length_le
      refine ⟨0, recovers_marker_part next, within_zero some_ _ ?_⟩
      change part.length ≤ LogWire.records.length at bound
      simp only [Lines.terminate, List.flatMap_cons, List.flatMap_nil, List.length_append,
        List.length_singleton, List.length_nil]
      omega
    · obtain ⟨rfl, behind⟩ := List.cons.inj lines
      obtain ⟨rfl, records⟩ := List.cons.inj behind
      change events.map EventEnvelope.line = whole ++ rest at records
      have before : whole = (events.take whole.length).map EventEnvelope.line := by
        rw [List.map_take, records]
        exact List.take_left.symm
      have after : rest = (events.drop whole.length).map EventEnvelope.line := by
        rw [List.map_drop, records]
        exact List.drop_left.symm
      rw [after] at next
      obtain ⟨count, recovers, within⟩ := holds.record_part some_ whole.length part next
      rw [← before] at recovers
      refine ⟨count, recovers, ?_⟩
      have length : (Lines.terminate 10 (LogWire.header :: LogWire.records :: whole)).length =
          36 + recordBytes events whole.length := by
        rw [recordBytes, ← before]
        simp only [Lines.terminate, List.flatMap_cons, List.length_append, List.length_singleton]
        omega
      rw [List.length_append, length]
      exact within

theorem Within.iff {count bytes : Nat} (within : Within events count bytes) (position : Nat)
    (valid : position < events.length) :
    position < count ↔ (logBytes (events.take (position + 1))).length - 1 ≤ bytes := by
  have grows (a b : Nat) (le : a ≤ b) :
      (logBytes (events.take a)).length ≤ (logBytes (events.take b)).length := by
    have lines : logLines (events.take a) <+: logLines (events.take b) := by
      obtain ⟨more, rest⟩ := List.take_prefix_take_left le (l := events)
      rw [← rest]
      cases events.take a with
      | nil => exact List.nil_prefix
      | cons first others =>
          refine ⟨more.map EventEnvelope.line, ?_⟩
          simp [logLines]
    obtain ⟨more, rest⟩ := lines
    rw [logBytes, logBytes, ← rest, Lines.terminate, Lines.terminate, List.flatMap_append,
      List.length_append]
    exact Nat.le_add_right _ _
  obtain ⟨low, high⟩ := within
  constructor
  · intro inside
    rcases low with rfl | low
    · cases inside
    · have step := grows (position + 1) count inside
      omega
  · intro ends
    by_contra outside
    have step := grows (count + 1) (position + 1) (by omega)
    have bound := high (by omega)
    omega

end Cut

theorem mem_of_admitted {inputs : List (AppendRequest × Timestamp)}
    {input : AppendRequest × Timestamp} (present : input ∈ admitted inputs) : input ∈ inputs := by
  induction inputs using List.reverseRecOn with
  | nil => cases present
  | append_singleton inputs last ih =>
      rw [admitted, List.foldl_append] at present
      change input ∈ keepAdmissible (admitted inputs) last at present
      unfold keepAdmissible at present
      split at present
      · rcases List.mem_append.mp present with old | new
        · exact List.mem_append_left _ (ih old)
        · exact List.mem_append_right _ new
      · exact List.mem_append_left _ (ih present)

theorem logTexts_logBytes_eq {events : List EventEnvelope}
    (writable : ∀ event ∈ events, LogWire.Writable event.record) :
    logTexts (logBytes events) = logLines events := by
  by_cases some_ : events = []
  · rw [some_]; rfl
  · have lines := lines_printable writable some_
    obtain ⟨first, rest, rfl⟩ := List.exists_cons_of_ne_nil some_
    have read := getLines_terminate lines []
    rw [List.append_nil] at read
    rw [logTexts, logBytes, logLines, read, List.map_append, lineText_printable lines]
    · exact List.append_nil _
    · exact some_

theorem durable_line (event : EventEnvelope) : event.durable.line = event.line := by
  have fields : LogWire.fields event.durable.record = LogWire.fields event.record := rfl
  unfold EventEnvelope.line LogWire.encode LogWire.recordDigest
  rw [fields]

theorem logBytes_durable (events : List EventEnvelope) :
    logBytes (events.map EventEnvelope.durable) = logBytes events := by
  have lines : logLines (events.map EventEnvelope.durable) = logLines events := by
    cases events with
    | nil => rfl
    | cons first rest =>
        simp only [logLines, List.map_cons, List.map_map, durable_line]
        congr 3
  rw [logBytes, lines, logBytes]

variable {store : FileEventStore}

theorem indexAppended_full {request : AppendRequest} (admissible : Admissible request)
    (synced : store.index.Synced) (absent : store.index.integrityById request.eventId = none)
    (full : store.index.memory.maxEvents.toNat ≤ store.index.memory.events.length) (now : Timestamp) :
    store.indexAppended request now =
      ({ store with
          log := some (store.log.getD [] ++ store.appendedBytes (store.newRecord request now))
          needsSeparator := false
          index := { store.index with v2 := true }
          readOnly := true
          recoveryStatus := .dataLoss
          recoveryDiagnostic := "event index update failed after durable append" },
        .error (storeError .dataLoss "event index update failed after durable append")) := by
  unfold indexAppended
  have refused : store.index.memory.appendStamped request now .appendProcess =
      (store.index.memory,
        .error (storeError .resourceExhausted "event store capacity exhausted" true)) := by
    unfold MemoryEventStore.appendStamped
    rw [if_neg (by simp [admissible.valid]), if_neg (requestError_none admissible.checked).1,
      fresh_of_absent synced absent]
    exact if_pos full
  rw [refused]

theorem Progress.run_successful {maxEvents : UInt64} {attempts : List Attempt}
    (progress : Progress maxEvents attempts store) (inputs : List (AppendRequest × Timestamp))
    (successful : ∀ attempt ∈ attemptsOf store inputs, ∃ receipt, attempt.2 = .ok receipt) :
    Progress maxEvents (attempts ++ attemptsOf store inputs)
      (Execution.run appendStep store inputs) := by
  induction inputs generalizing attempts store with
  | nil =>
      rw [attemptsOf, Execution.trace, List.append_nil]
      exact progress
  | cons input rest ih =>
      have attemptsEq : attemptsOf store (input :: rest) =
          (input, (store.append input.1 input.2).2) ::
            attemptsOf (store.append input.1 input.2).1 rest := rfl
      rw [attemptsEq] at successful ⊢
      have written := progress.written
      obtain ⟨receipt, answer⟩ := successful _ List.mem_cons_self
      have next := progress.append input.1 input.2 fun admissible absent => by
        by_contra full
        have outcome := store.append_outcome input.1 input.2 written.loaded written.writable
        generalize store.append input.1 input.2 = result at outcome answer
        cases outcome with
        | refused => cases answer
        | repeated _ _ found =>
            rw [fresh_of_absent written.synced absent] at found
            cases found
        | written =>
            rw [indexAppended_full admissible written.synced absent
              (by rw [written.capacity]; omega)] at answer
            cases answer
      have later := ih next fun attempt present => successful attempt (by simp [present])
      rw [List.append_assoc] at later
      exact later

section Further
variable {store : FileEventStore} (faithful : store.Faithful) {request : AppendRequest}
  {now : Timestamp}
include faithful

theorem Faithful.append_succeeds (admissible : Admissible request)
    (fresh : ∀ event ∈ store.index.memory.events, event.eventId ≠ request.eventId)
    (room : store.index.memory.events.length < store.index.memory.maxEvents.toNat) :
    ∃ receipt, (store.append request now).2 = .ok receipt := by
  have synced := faithful.synced
  have absent : store.index.integrityById request.eventId = none := by
    rw [synced.digests, Option.map_eq_none_iff, ← Option.not_isSome_iff_eq_none,
      Option.isSome_iff_exists]
    rintro ⟨event, found⟩
    obtain ⟨present, same⟩ := (synced.consistent.found _ _).mp found
    exact fresh event present same
  have outcome := store.append_outcome request now faithful.loaded faithful.writable
  generalize store.append request now = result at outcome
  cases outcome with
  | refused _ cause => exact absurd absent (cause admissible)
  | repeated event => exact ⟨_, rfl⟩
  | written => exact ⟨_, by rw [indexAppended_ok admissible synced absent room]⟩

theorem Faithful.append_reopened (storable : Storable request now) (receipt : AppendReceipt)
    (answer : (store.append request now).2 = .ok receipt) :
    ((store.append request now).1.reopen.recover).2.status = .clean ∧
      ((store.append request now).1.reopen.recover).1.index.memory.events.map
          EventEnvelope.durable =
        accept (store.index.memory.events.map EventEnvelope.durable)
          ((request, now), .ok receipt) := by
  have synced := faithful.synced
  have outcome := store.append_outcome request now faithful.loaded faithful.writable
  generalize store.append request now = result at outcome answer
  cases outcome with
  | refused => cases answer
  | repeated event _ found =>
      obtain ⟨clean, same, _⟩ := faithful.reopened {}
      refine ⟨clean, (congrArg (·.memory.events) same).trans (if_pos ?_).symm⟩
      obtain ⟨present, own⟩ := (synced.consistent.found _ _).mp found
      rw [List.any_map, List.any_eq_true]
      exact ⟨event, present, decide_eq_true own⟩
  | written admissible absent =>
      have room : store.index.memory.events.length < store.index.memory.maxEvents.toNat := by
        by_contra full
        rw [indexAppended_full admissible synced absent (by omega)] at answer
        cases answer
      obtain ⟨clean, same, _⟩ :=
        (faithful.appended admissible storable absent room).reopened {}
      refine ⟨clean, (congrArg (·.memory.events) same).trans ?_⟩
      rw [indexAppended_ok admissible synced absent room] at answer ⊢
      cases answer
      refine Eq.trans ?_ (if_neg ?_).symm
      · change (store.index.memory.events ++ [store.newEvent request now]).map _ = _
        rw [List.map_append, List.map_singleton]
        exact congrArg (_ ++ [·]) (newEvent_durable synced request now _ _)
      · rw [List.any_map, List.any_eq_true]
        rintro ⟨event, present, own⟩
        have found := (synced.consistent.found _ _).mpr ⟨present, of_decide_eq_true own⟩
        rw [fresh_of_absent synced absent] at found
        cases found

end Further

/-- Let the log of a run of successful appends be cut off at any byte. Recovery never
leaves the store read-only; it keeps exactly the events whose record, without the
terminator, ends within what is left; and a further append is accepted, if the
request is admissible and there is room, and survives the next reopen, which is
clean. -/
theorem torn_tail_recovery (maxEvents : UInt64) (inputs : List (AppendRequest × Timestamp))
    (successful : ∀ attempt ∈ attemptsOf (create maxEvents none) inputs,
      ∃ receipt, attempt.2 = .ok receipt)
    (storable : ∀ input ∈ inputs, Storable input.1 input.2) (torn : Bytes)
    (cut : torn <+: (Execution.run appendStep (create maxEvents none) inputs).log.getD []) :
    let events := accepted (attemptsOf (create maxEvents none) inputs)
    let recovered := (create maxEvents (some torn)).recover { repairUncommittedTail := true }
    (Execution.run appendStep (create maxEvents none) inputs).log.getD [] = logBytes events ∧
    (recovered.2.status = .clean ∨ recovered.2.status = .tailTruncated) ∧
    ∃ count,
      recovered.1.index.memory.events.map EventEnvelope.durable = events.take count ∧
      (∀ position < events.length,
        position < count ↔ (logBytes (events.take (position + 1))).length - 1 ≤ torn.length) ∧
      (∀ request now, Admissible request →
        (∀ event ∈ events.take count, event.eventId ≠ request.eventId) →
        (events.take count).length < maxEvents.toNat →
        ∃ receipt, (recovered.1.append request now).2 = .ok receipt) ∧
      ∀ request now receipt, Storable request now →
        (recovered.1.append request now).2 = .ok receipt →
        ((recovered.1.append request now).1.reopen.recover).2.status = .clean ∧
        ((recovered.1.append request now).1.reopen.recover).1.index.memory.events.map
            EventEnvelope.durable =
          accept (events.take count) ((request, now), .ok receipt) := by
  intro events recovered
  obtain ⟨reopened, attempts⟩ := run_opened (create maxEvents none) inputs rfl
  have log : (Execution.run appendStep (create maxEvents none) inputs).log =
      (Execution.run appendStep (create maxEvents none).opened inputs).log :=
    congrArg (·.log) reopened
  have progress : Progress maxEvents (attemptsOf (create maxEvents none) inputs)
      (Execution.run appendStep (create maxEvents none).opened inputs) := by
    rw [attempts] at successful ⊢
    exact (opened_progress maxEvents).run_successful inputs successful
  have kept : events = (Execution.run appendStep (create maxEvents none).opened
      inputs).index.memory.events.map EventEnvelope.durable := progress.reports.symm
  generalize Execution.run appendStep (create maxEvents none).opened inputs = store
    at log progress kept
  obtain ⟨faithful, writable⟩ := progress.faithful fun input present =>
    storable input (by rw [attemptsOf_fst] at present; exact mem_of_admitted present)
  obtain ⟨index, accounts, same⟩ := faithful.accounted
  rw [progress.written.capacity, progress.written.log, logTexts_logBytes_eq writable] at accounts
  have holds : Holds maxEvents store.index.memory.events index :=
    ⟨writable, accounts, congrArg (·.memory.events) same⟩
  rw [log, progress.written.log] at cut
  obtain ⟨count, recovers, within⟩ := holds.cut torn cut
  have taken : (store.index.memory.events.take count).map EventEnvelope.durable =
      events.take count := by rw [kept, List.map_take]
  have bytes (n : Nat) : logBytes (events.take n) =
      logBytes (store.index.memory.events.take n) := by
    rw [kept, ← List.map_take, logBytes_durable]
  obtain ⟨again, capacity⟩ := recover_faithful maxEvents (some torn) {} recovers.writable
  have held : recovered.1.index.memory.events.map EventEnvelope.durable = events.take count :=
    recovers.events.trans taken
  refine ⟨?_, recovers.status, count, held, ?_, ?_, ?_⟩
  · rw [log, progress.written.log, kept, logBytes_durable]
  · intro position valid
    rw [bytes]
    refine within.iff position ?_
    rwa [kept, List.length_map] at valid
  · intro request now admissible fresh room
    refine again.append_succeeds admissible ?_ ?_
    · intro event present own
      refine fresh event.durable ?_ own
      rw [← held]
      exact List.mem_map_of_mem present
    · rw [← held, List.length_map] at room
      rw [capacity]
      exact room
  · intro request now receipt storable_ answer
    rw [← held]
    exact again.append_reopened storable_ receipt answer

/-- The log of one append without its last byte, the terminator of the record, still
holds the event. -/
theorem unterminated_record_recovered :
    let log := (Execution.run appendStep (create 2 none)
      [(sampleRequest 1 (ascii "x"), {})]).log.getD []
    ((create 2 (some log.dropLast)).recover).1.index.memory.events.length = 1 := by
  intro log
  have successful : ∀ attempt ∈ attemptsOf (create 2 none) [(sampleRequest 1 (ascii "x"), {})],
      ∃ receipt, attempt.2 = .ok receipt := by
    intro attempt present
    rw [List.mem_singleton.mp present]
    exact ⟨⟨.filled 1, 1, none, 1, .processCrash⟩, rfl⟩
  have storable : ∀ input ∈ [(sampleRequest 1 (ascii "x"), ({} : Timestamp))],
      Storable input.1 input.2 := by
    intro input present
    rw [List.mem_singleton.mp present]
    exact sampleRequest_storable 1 _ (validUtf8_printable_ascii _ (by decide +kernel))
  obtain ⟨bytes, _, count, held, ends, _⟩ := torn_tail_recovery 2 _ successful storable
    log.dropLast (List.dropLast_prefix log)
  have one : (accepted (attemptsOf (create 2 none) [(sampleRequest 1 (ascii "x"), {})])).length =
      1 := rfl
  have inside := (ends 0 (by rw [one]; exact Nat.one_pos)).mpr (by
    rw [List.take_of_length_le (by rw [one]), List.length_dropLast, ← bytes])
  have length := congrArg List.length held
  rw [List.length_map, List.length_take, one] at length
  exact length.trans (by omega)

end FileEventStore

end Mira.Events
