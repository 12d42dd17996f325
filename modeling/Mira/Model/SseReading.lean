import Mira.Model.SseFraming

/-!
The framing against its stated grammar. The reference reads a whole stream: its lines, the events
that empty lines close, and for each event the values of its data lines, joined when it is closed.
The parser keeps the joined text instead and takes an empty one for no data, and an id that it has
delivered stays behind with nothing in it. So it delivers the reference exactly on the streams in
which no event begins its data with an empty line and none without an id comes after one that has
an id.
-/

namespace Mira.Model
open Mira Bytes

/-- The contents of the lines; a line ends at LF, CR or CRLF, the last one with the stream. -/
def linesFrom (line : Bytes) : Bytes → List Bytes
  | [] => if line = [] then [] else [line]
  | 13 :: 10 :: rest => line :: linesFrom [] rest
  | c :: rest => if isLineEnd c then line :: linesFrom [] rest else linesFrom (line ++ [c]) rest

def sseLines (stream : Bytes) : List Bytes := linesFrom [] stream

/-- The name of a field and its value, which loses one leading space. -/
def fieldOf (line : Bytes) : Bytes × Bytes :=
  (line.takeWhile fun c => c ≠ 58,
    match line.dropWhile fun c => c ≠ 58 with
    | [] => []
    | [_] => []
    | _ :: c :: value => if c = 32 then value else c :: value)

/-- The fields of an event; each data line has its value. -/
structure SseEvent where
  event : Bytes := []
  values : List Bytes := []
  id : Option Bytes := none
  retryMs : Option Int := none
  deriving DecidableEq

namespace SseEvent

def data (event : SseEvent) : Bytes := joinWith 10 event.values

def message (event : SseEvent) : SseMessage := ⟨event.event, event.data, event.id, event.retryMs⟩

def readField (event : SseEvent) (name value : Bytes) : SseEvent :=
  if name = ascii "event" then { event with event := value }
  else if name = ascii "data" then { event with values := event.values ++ [value] }
  else if name = ascii "id" then if 0 ∈ value then event else { event with id := some value }
  else if name = ascii "retry" then
    { event with retryMs := (stoll value).orElse fun _ => event.retryMs }
  else event

/-- An event with a name or a data line is delivered, and the next one has nothing yet. -/
def close (event : SseEvent) : SseEvent × List SseEvent :=
  if event.event = [] ∧ event.values = [] then (event, []) else ({}, [event])

def readLine (event : SseEvent) (line : Bytes) : SseEvent × List SseEvent :=
  if line = [] then event.close
  else if line.head? = some 58 then (event, [])
  else (event.readField (fieldOf line).1 (fieldOf line).2, [])

/-- The events of the lines; the end of the stream closes the last one. -/
def eventsFrom (event : SseEvent) : List Bytes → List SseEvent
  | [] => event.close.2
  | line :: rest => (event.readLine line).2 ++ (event.readLine line).1.eventsFrom rest

/-- The data does not begin with an empty line, unless that line is all of it and the event has a
name. -/
def Plain (event : SseEvent) : Prop :=
  event.values.head? = some [] → event.values = [[]] ∧ event.event ≠ []

/-- The id that the parser delivers, where one that it has delivered before stays behind empty. -/
def carriedId (stale : Bool) (event : SseEvent) : Option Bytes :=
  event.id.or (if stale then some [] else none)

/-- The messages with the ids that the parser delivers. -/
def carried (stale : Bool) : List SseEvent → List SseMessage
  | [] => []
  | event :: rest =>
      { event.message with id := event.carriedId stale } ::
        carried (stale || event.id.isSome) rest

end SseEvent

/-- The events without an id come before those with one. -/
def IdsStay (events : List SseEvent) : Prop :=
  events.Pairwise fun earlier later => earlier.id.isSome = true → later.id.isSome = true

def sseEvents (stream : Bytes) : List SseEvent := SseEvent.eventsFrom {} (sseLines stream)

def reference (stream : Bytes) : List SseMessage := (sseEvents stream).map SseEvent.message

structure WithinLimits (limits : SseFramingLimits) (stream : Bytes) : Prop where
  total : stream.length ≤ limits.maxTotalBytes
  lines : ∀ line ∈ sseLines stream, line.length ≤ limits.maxLineBytes
  data : ∀ event ∈ sseEvents stream, event.data.length ≤ limits.maxEventDataBytes
  count : (sseEvents stream).length ≤ limits.maxEvents

def collectDialect : SseDialect (List SseMessage) (List SseMessage) where
  reduce collected message := .ok (collected ++ [message])
  respond := .ok

def deliver (limits : SseFramingLimits) (chunks : List Bytes) : ModelResult (List SseMessage) :=
  (collectDialect.stream ⟨{ limits := limits }, [], 0⟩ chunks).map Prod.snd

theorem dropLast_snoc (c : UInt8) (line : Bytes) : dropLast c (line ++ [c]) = line := by
  rw [dropLast, List.getLast?_concat, if_pos rfl, List.dropLast_concat]

theorem dropLast_absent {c : UInt8} {line : Bytes} (absent : c ∉ line) : dropLast c line = line := by
  rw [dropLast, if_neg fun last => absent (List.mem_of_getLast? last)]

section
variable {content : Bytes} (plain : ∀ c ∈ content, isLineEnd c = false)
include plain

theorem lineContent_plain : lineContent content = content ∧
    lineContent (content ++ [13]) = content ∧ lineContent (content ++ [10]) = content ∧
    lineContent (content ++ [13, 10]) = content := by
  have lf : (10 : UInt8) ∉ content := fun held => by cases plain 10 held
  have cr : (13 : UInt8) ∉ content := fun held => by cases plain 13 held
  have lf' : (10 : UInt8) ∉ content ++ [13] := by simp [lf]
  have pair : content ++ [13, 10] = (content ++ [13]) ++ [10] := by simp
  refine ⟨?_, ?_, ?_, ?_⟩
  · rw [lineContent, dropLast_absent lf, dropLast_absent cr]
  · rw [lineContent, dropLast_absent lf', dropLast_snoc]
  · rw [lineContent, dropLast_snoc, dropLast_absent cr]
  · rw [lineContent, pair, dropLast_snoc, dropLast_snoc]

theorem linesFrom_plain (line rest : Bytes) :
    linesFrom line (content ++ rest) = linesFrom (line ++ content) rest := by
  induction content generalizing line with
  | nil => rw [List.nil_append, List.append_nil]
  | cons c more ih =>
      obtain ⟨own, others⟩ := List.forall_mem_cons.mp plain
      rw [List.cons_append, linesFrom, own, if_neg Bool.false_ne_true, ih others, List.append_assoc,
        List.singleton_append]
      intro later same
      subst same
      cases own

end

theorem takeWhile_plain (buffer : Bytes) :
    ∀ c ∈ buffer.takeWhile fun c => !isLineEnd c, isLineEnd c = false := by
  intro c held
  have kept := List.all_eq_true.mp (List.all_takeWhile (l := buffer)) c held
  rwa [Bool.not_eq_true'] at kept

variable {buffer line rest : Bytes}

theorem linesFrom_some (cut : nextLine buffer = some (line, rest)) :
    sseLines buffer = lineContent line :: sseLines rest := by
  have plain := takeWhile_plain buffer
  obtain ⟨_, cr, lf, crlf⟩ := lineContent_plain plain
  have whole := List.takeWhile_append_dropWhile (p := fun c => !isLineEnd c) (l := buffer)
  have ends := List.head?_dropWhile_not (fun c => !isLineEnd c) buffer
  rw [sseLines, ← whole, linesFrom_plain plain, List.nil_append]
  rw [nextLine] at cut
  generalize buffer.dropWhile (fun c => !isLineEnd c) = tail at cut ends
  split at cut
  · cases cut
  · cases cut
  · cases cut
    rw [crlf, linesFrom]
    rfl
  · next ending _ alone pair =>
      cases cut
      have ended : isLineEnd ending = true := by simpa using ends
      rw [linesFrom, ended, if_pos rfl, sseLines]
      · rw [isLineEnd, Bool.or_eq_true, decide_eq_true_iff, decide_eq_true_iff] at ended
        cases ended with
        | inl newline => rw [newline, lf]
        | inr carriage => rw [carriage, cr]
      · exact fun later same => pair later same

theorem linesFrom_none (open_ : nextLine buffer = none) :
    sseLines buffer = if buffer = [] then [] else [lineContent buffer] := by
  have plain := takeWhile_plain buffer
  obtain ⟨bare, cr, _, _⟩ := lineContent_plain plain
  have whole := List.takeWhile_append_dropWhile (p := fun c => !isLineEnd c) (l := buffer)
  rw [sseLines, ← whole, linesFrom_plain plain, List.nil_append]
  rw [nextLine] at open_
  generalize buffer.dropWhile (fun c => !isLineEnd c) = tail at open_
  split at open_
  · rw [List.append_nil, linesFrom, bare]
  · rw [cr, linesFrom, if_pos (by decide), linesFrom, if_pos rfl, if_neg (by simp)]
    intro later _ same
    cases same
  · cases open_
  · cases open_

theorem splitField_eq (content : Bytes) : splitField content = fieldOf content := by
  have whole := List.takeWhile_append_dropWhile (p := fun c => decide (c ≠ 58)) (l := content)
  have dropped : content.drop (content.takeWhile fun c => c ≠ 58).length =
      content.dropWhile fun c => c ≠ 58 :=
    (congrArg (List.drop _) whole.symm).trans List.drop_left
  have named : splitField content = (content.takeWhile fun c => c ≠ 58,
      let value := (content.dropWhile fun c => c ≠ 58).drop 1
      if value.head? = some 32 then value.drop 1 else value) := by
    rw [← dropped]
    rfl
  rw [named, fieldOf]
  split
  · next none_ => rw [none_]; rfl
  · next alone => rw [alone]; rfl
  · next c value found =>
      rw [found]
      by_cases space : c = 32
      · rw [if_pos space, space]
        rfl
      · have first : (c :: value).head? ≠ some 32 := fun same => space (Option.some.inj same)
        simp only [List.drop_succ_cons, List.drop_zero, if_neg first, if_neg space]

/-- The text that the parser has of the data lines. -/
def textOf (values : List Bytes) : Bytes := joinWith 10 (values.dropWhile fun value => value = [])

theorem joinWith_snoc (values : List Bytes) (value : Bytes) : joinWith 10 (values ++ [value]) =
    if values = [] then value else joinWith 10 values ++ 10 :: value := by
  induction values with
  | nil => rfl
  | cons first rest ih =>
      rw [if_neg (List.cons_ne_nil _ _), List.cons_append]
      cases rest with
      | nil => rfl
      | cons second later =>
          rw [if_neg (List.cons_ne_nil _ _)] at ih
          rw [List.cons_append, joinWith, ← List.cons_append, ih, joinWith, List.append_assoc,
            List.cons_append]

theorem textOf_nil_iff (values : List Bytes) :
    textOf values = [] ↔ values.dropWhile (fun value => value = []) = [] := by
  rw [textOf]
  have first := List.head?_dropWhile_not (fun value : Bytes => value = []) values
  cases shape : values.dropWhile fun value => value = [] with
  | nil => exact ⟨fun _ => rfl, fun _ => rfl⟩
  | cons value rest =>
      rw [shape] at first
      have present : value ≠ [] := by simpa using first
      refine ⟨fun none_ => ?_, fun never => (List.cons_ne_nil _ _ never).elim⟩
      cases rest with
      | nil => exact absurd none_ present
      | cons next more => exact absurd (List.append_eq_nil_iff.mp none_).1 present

theorem textOf_snoc (values : List Bytes) (value : Bytes) : textOf (values ++ [value]) =
    (if textOf values = [] then [] else textOf values ++ [10]) ++ value := by
  have kept := textOf_nil_iff values
  rw [textOf, List.dropWhile_append]
  by_cases blank : textOf values = []
  · rw [if_pos blank, kept.mp blank, List.isEmpty_nil, if_pos rfl, List.nil_append]
    by_cases empty : value = []
    · subst empty
      rfl
    · rw [List.dropWhile_cons, if_neg (by simpa using empty)]
      rfl
  · have present : values.dropWhile (fun value => value = []) ≠ [] := fun none_ =>
      blank (kept.mpr none_)
    rw [if_neg blank, if_neg (by simpa [List.isEmpty_iff] using present), joinWith_snoc,
      if_neg present, ← textOf, List.append_assoc, List.singleton_append]

theorem length_textOf_le (values : List Bytes) :
    (textOf values).length ≤ (joinWith 10 values).length := by
  induction values using List.reverseRecOn with
  | nil => exact Nat.le_refl _
  | append_singleton values value ih =>
      rw [textOf_snoc, joinWith_snoc]
      split
      · rw [List.nil_append]
        split
        · exact Nat.le_refl _
        · rw [List.length_append, List.length_cons]
          omega
      · next present =>
          split
          · next none_ =>
              subst none_
              exact absurd rfl present
          · simp only [List.length_append, List.length_cons, List.length_nil]
            omega

theorem length_joinWith_snoc (values : List Bytes) (value : Bytes) :
    (joinWith 10 values).length ≤ (joinWith 10 (values ++ [value])).length := by
  rw [joinWith_snoc]
  split
  · next none_ =>
      rw [none_]
      exact Nat.zero_le _
  · rw [List.length_append]
    exact Nat.le_add_right _ _

namespace SseEvent

def shown (event : SseEvent) : Option (Bytes × Bytes) :=
  if event.event = [] ∧ textOf event.values = [] then none
  else some (event.event, textOf event.values)

theorem shown_iff (event : SseEvent) (open_ : ¬ (event.event = [] ∧ event.values = [])) :
    event.shown = some (event.event, event.data) ↔ event.Plain := by
  rw [shown, data, Plain]
  cases shape : event.values with
  | nil =>
      have named : event.event ≠ [] := fun none_ => open_ ⟨none_, shape⟩
      rw [if_neg fun both => named both.1]
      exact ⟨fun _ never => (by cases never), fun _ => rfl⟩
  | cons first rest =>
      by_cases blank : first = []
      · subst blank
        have skipped : textOf ([] :: rest) = textOf rest := by
          rw [textOf, List.dropWhile_cons, if_pos (by rfl), textOf]
        rw [skipped]
        cases rest with
        | nil =>
            by_cases named : event.event = []
            · rw [if_pos ⟨named, rfl⟩]
              refine ⟨fun never => (by cases never), fun plain => absurd named (plain rfl).2⟩
            · rw [if_neg fun both => named both.1]
              exact ⟨fun _ _ => ⟨rfl, named⟩, fun _ => rfl⟩
        | cons second later =>
            refine ⟨fun same => ?_, fun plain => ?_⟩
            · have short := length_textOf_le (second :: later)
              split at same
              · cases same
              · rw [Option.some.injEq, Prod.mk.injEq] at same
                rw [same.2, joinWith, List.nil_append, List.length_cons] at short
                omega
            · cases (plain rfl).1
      · have kept : textOf (first :: rest) = joinWith 10 (first :: rest) := by
          rw [textOf, List.dropWhile_cons, if_neg (by simpa using blank)]
        have some_ : textOf (first :: rest) ≠ [] := by
          intro none_
          rw [textOf_nil_iff, List.dropWhile_cons, if_neg (by simpa using blank)] at none_
          cases none_
        rw [if_neg fun both => some_ both.2, kept]
        exact ⟨fun _ same => absurd (Option.some.inj same) blank, fun _ => rfl⟩

end SseEvent

/-- The parser holds the fields of the event, with the data as text. -/
structure Holds (pending : SsePending) (event : SseEvent) : Prop where
  named : pending.event = event.event
  data : pending.data = textOf event.values

structure Alike (stale : Bool) (pending : SsePending) (event : SseEvent) : Prop where
  id : pending.id = event.carriedId stale
  retryMs : pending.retryMs = event.retryMs

/-- While the reference goes from one event to another and closes the events between them, the
parser delivers the messages; where the events are plain, they have the ids that it carries. -/
structure Follows (before : SsePending) (event : SseEvent) (after : SsePending)
    (messages : List SseMessage) (next : SseEvent) (events : List SseEvent) : Prop where
  holds : Holds after next
  counted : after.dispatched = before.dispatched + messages.length
  shown : messages.map (fun message => (message.event, message.data)) =
    events.filterMap SseEvent.shown
  plain : ∀ stale, Alike stale before event → (∀ closed ∈ events, closed.Plain) →
    Alike (stale || events.any fun closed => closed.id.isSome) after next ∧
      messages = SseEvent.carried stale events

variable {before middle after : SsePending} {event between next : SseEvent}
  {first second : List SseMessage} {early late : List SseEvent} {limits : SseFramingLimits}

theorem carried_append (stale : Bool) (early late : List SseEvent) :
    SseEvent.carried stale (early ++ late) = SseEvent.carried stale early ++
      SseEvent.carried (stale || early.any fun closed => closed.id.isSome) late := by
  induction early generalizing stale with
  | nil => rw [List.any_nil, Bool.or_false, List.nil_append, SseEvent.carried, List.nil_append]
  | cons event rest ih =>
      rw [List.cons_append, SseEvent.carried, ih, SseEvent.carried, List.any_cons, Bool.or_assoc,
        List.cons_append]

theorem carried_stale (events : List SseEvent) :
    SseEvent.carried true events = events.map SseEvent.message ↔
      ∀ event ∈ events, event.id.isSome = true := by
  induction events with
  | nil => simp [SseEvent.carried]
  | cons event rest ih =>
      rw [SseEvent.carried, Bool.true_or, List.map_cons, List.cons.injEq, ih, List.forall_mem_cons]
      refine and_congr_left fun _ => ?_
      cases known : event.id <;> simp [SseEvent.message, SseEvent.carriedId, known]

theorem carried_reference (events : List SseEvent) :
    SseEvent.carried false events = events.map SseEvent.message ↔ IdsStay events := by
  induction events with
  | nil => simp [SseEvent.carried, IdsStay]
  | cons event rest ih =>
      have own : { event.message with id := event.carriedId false } = event.message := by
        simp [SseEvent.message, SseEvent.carriedId]
      rw [SseEvent.carried, own, List.map_cons, List.cons.injEq, IdsStay, List.pairwise_cons,
        Bool.false_or]
      simp only [true_and]
      cases known : event.id.isSome with
      | false => simpa [known, IdsStay] using ih
      | true =>
          rw [carried_stale]
          refine ⟨fun all => ⟨fun later among _ => all later among, ?_⟩,
            fun both later among => both.1 later among rfl⟩
          exact List.pairwise_of_forall_mem_list fun _ _ later among _ => all later among

theorem Follows.trans (one : Follows before event middle first between early)
    (other : Follows middle between after second next late) :
    Follows before event after (first ++ second) next (early ++ late) where
  holds := other.holds
  counted := by rw [other.counted, one.counted, List.length_append, Nat.add_assoc]
  shown := by rw [List.map_append, one.shown, other.shown, List.filterMap_append]
  plain := by
    intro stale alike plain
    obtain ⟨alike', same⟩ :=
      one.plain stale alike fun closed own => plain closed (List.mem_append_left _ own)
    obtain ⟨alike'', same'⟩ :=
      other.plain _ alike' fun closed own => plain closed (List.mem_append_right _ own)
    rw [Bool.or_assoc, ← List.any_append] at alike''
    exact ⟨alike'', by rw [same, same', carried_append]⟩

theorem Follows.fewer (follows : Follows before event after first next early) :
    first.length ≤ early.length := by
  have counted := congrArg List.length follows.shown
  rw [List.length_map] at counted
  rw [counted]
  exact List.length_filterMap_le _ _

theorem Alike.stays {stale : Bool} (alike : Alike stale before event) :
    Alike (stale || ([] : List SseEvent).any fun closed => closed.id.isSome) before event := by
  rw [List.any_nil, Bool.or_false]
  exact alike

/-- The id of an event that is delivered stays behind with nothing in it. -/
theorem carriedId_left (stale : Bool) (event : SseEvent) :
    (event.carriedId stale).map (fun _ => []) =
      SseEvent.carriedId (stale || event.id.isSome) {} := by
  cases known : event.id <;> cases stale <;> simp [SseEvent.carriedId, known]

theorem dispatch_follows (holds : Holds before event) :
    Follows before event (dispatch before).1 (dispatch before).2 event.close.1 event.close.2 := by
  have same : (before.event = [] ∧ before.data = []) ↔
      (event.event = [] ∧ textOf event.values = []) := by
    rw [holds.named, holds.data]
  rw [dispatch, SseEvent.close]
  by_cases blank : event.event = [] ∧ event.values = []
  · have quiet : before.event = [] ∧ before.data = [] :=
      same.mpr ⟨blank.1, by rw [blank.2]; rfl⟩
    rw [if_pos blank, if_pos quiet]
    exact ⟨holds, rfl, rfl, fun _ alike _ => ⟨alike.stays, rfl⟩⟩
  · have shown := SseEvent.shown_iff event blank
    rw [if_neg blank]
    by_cases quiet : before.event = [] ∧ before.data = []
    · have hidden : event.shown = none := if_pos (same.mp quiet)
      rw [if_pos quiet]
      refine ⟨⟨quiet.1, quiet.2⟩, rfl, ?_, fun _ _ plain => ?_⟩
      · rw [List.filterMap_cons_none hidden]
        rfl
      · have delivered := shown.mpr (plain event (List.mem_singleton.mpr rfl))
        rw [hidden] at delivered
        cases delivered
    · have seen : event.shown = some (event.event, textOf event.values) :=
        if_neg fun both => quiet (same.mpr both)
      rw [if_neg quiet]
      refine ⟨⟨rfl, rfl⟩, rfl, ?_, fun stale alike plain => ?_⟩
      · rw [List.filterMap_cons_some seen, List.map_cons, holds.named, holds.data]
        rfl
      · have delivered := shown.mpr (plain event (List.mem_singleton.mpr rfl))
        rw [seen, Option.some.injEq, Prod.mk.injEq] at delivered
        refine ⟨⟨?_, rfl⟩, ?_⟩
        · rw [alike.id, List.any_cons, List.any_nil, Bool.or_false]
          exact carriedId_left stale event
        · rw [SseEvent.carried, SseEvent.carried, SseEvent.message, holds.named, holds.data,
            delivered.2, alike.id, alike.retryMs]

theorem takeField_follows (holds : Holds before event) {name value : Bytes}
    (fits : (event.readField name value).data.length ≤ limits.maxEventDataBytes) :
    ∃ after, takeField limits before name value = .ok after ∧
      Follows before event after [] (event.readField name value) [] := by
  rw [SseEvent.readField] at fits ⊢
  rw [takeField]
  split
  · exact ⟨_, rfl, ⟨rfl, holds.data⟩, rfl, rfl,
      fun _ alike _ => ⟨.stays ⟨alike.id, alike.retryMs⟩, rfl⟩⟩
  · next other =>
      rw [if_neg other] at fits
      split
      · next named =>
          rw [if_pos named] at fits
          have joined : (if before.data = [] then [] else before.data ++ [10]) ++ value =
              textOf (event.values ++ [value]) := by
            rw [textOf_snoc, holds.data]
          have short := length_textOf_le (event.values ++ [value])
          have fits' : (joinWith 10 (event.values ++ [value])).length ≤ limits.maxEventDataBytes :=
            fits
          dsimp only
          rw [← List.length_append, joined, if_neg (by omega)]
          exact ⟨_, rfl, ⟨holds.named, rfl⟩, rfl, rfl,
            fun _ alike _ => ⟨.stays ⟨alike.id, alike.retryMs⟩, rfl⟩⟩
      · split
        · split
          · exact ⟨_, rfl, holds, rfl, rfl, fun _ alike _ => ⟨alike.stays, rfl⟩⟩
          · exact ⟨_, rfl, ⟨holds.named, holds.data⟩, rfl, rfl,
              fun stale alike _ => ⟨⟨rfl, alike.retryMs⟩, rfl⟩⟩
        · split
          · exact ⟨_, rfl, ⟨holds.named, holds.data⟩, rfl, rfl, fun _ alike _ =>
              ⟨.stays ⟨alike.id, by rw [alike.retryMs]⟩, rfl⟩⟩
          · exact ⟨_, rfl, holds, rfl, rfl, fun _ alike _ => ⟨alike.stays, rfl⟩⟩

theorem processLine_follows (holds : Holds before event)
    (short : (lineContent line).length ≤ limits.maxLineBytes)
    (fits : (event.readLine (lineContent line)).1.data.length ≤ limits.maxEventDataBytes) :
    ∃ after messages, processLine limits before line = .ok (after, messages) ∧
      Follows before event after messages (event.readLine (lineContent line)).1
        (event.readLine (lineContent line)).2 := by
  rw [SseEvent.readLine] at fits ⊢
  rw [processLine, if_neg (not_lt.mpr short)]
  split
  · exact ⟨_, _, rfl, dispatch_follows holds⟩
  · next present =>
      rw [if_neg present] at fits
      split
      · exact ⟨_, _, rfl, holds, rfl, rfl, fun _ alike _ => ⟨alike.stays, rfl⟩⟩
      · next field =>
          rw [if_neg field] at fits
          obtain ⟨after, taken, follows⟩ := takeField_follows holds fits
          rw [splitField_eq, taken]
          exact ⟨_, _, rfl, follows⟩

theorem data_bounded {bound : Nat} (lines : List Bytes) (event : SseEvent)
    (bounded : ∀ closed ∈ event.eventsFrom lines, closed.data.length ≤ bound) :
    event.data.length ≤ bound := by
  have closes (event : SseEvent) (bounded : ∀ closed ∈ event.close.2, closed.data.length ≤ bound) :
      event.data.length ≤ bound := by
    rw [SseEvent.close] at bounded
    split at bounded
    · next blank =>
        rw [SseEvent.data, blank.2]
        exact Nat.zero_le _
    · exact bounded event (List.mem_singleton.mpr rfl)
  induction lines generalizing event with
  | nil => exact closes event bounded
  | cons line rest ih =>
      rw [SseEvent.eventsFrom] at bounded
      have later := ih _ fun closed own => bounded closed (List.mem_append_right _ own)
      have here := fun closed own => bounded closed (List.mem_append_left _ own)
      rw [SseEvent.readLine] at later here
      split at later
      · next blank =>
          rw [if_pos blank] at here
          exact closes event here
      · split at later
        · exact later
        · refine le_trans ?_ later
          rw [SseEvent.readField]
          split
          · exact Nat.le_refl _
          · split
            · exact length_joinWith_snoc _ _
            · split
              · split <;> exact Nat.le_refl _
              · split <;> exact Nat.le_refl _

theorem delivers (limits : SseFramingLimits) (buffer : Bytes) (before : SsePending)
    (event : SseEvent) (holds : Holds before event)
    (short : ∀ line ∈ sseLines buffer, line.length ≤ limits.maxLineBytes)
    (bounded : ∀ closed ∈ event.eventsFrom (sseLines buffer),
      closed.data.length ≤ limits.maxEventDataBytes)
    (few : before.dispatched + (event.eventsFrom (sseLines buffer)).length ≤ limits.maxEvents) :
    ∃ after first rest last second, Frames limits before buffer after first rest ∧
      (∀ fed, SseFramingParser.finish ⟨limits, rest, after, fed⟩ =
        .ok (⟨limits, [], last, fed⟩, second)) ∧
      ∃ next, Follows before event last (first ++ second) next
        (event.eventsFrom (sseLines buffer)) := by
  induction size : buffer.length using Nat.strong_induction_on generalizing buffer before event with
  | _ size ih =>
      cases cut : nextLine buffer with
      | none =>
          have frames : Frames limits before buffer before [] buffer :=
            (frames_idle cut).mpr ⟨rfl, rfl, rfl⟩
          rw [linesFrom_none cut] at short bounded few ⊢
          by_cases empty : buffer = []
          · subst empty
            exact ⟨before, [], [], _, _, frames, fun _ => rfl, _, dispatch_follows holds⟩
          · rw [if_neg empty] at short bounded few ⊢
            have step : ∃ middle messages, processLine limits before buffer = .ok (middle, messages) ∧
                Follows before event middle messages (event.readLine (lineContent buffer)).1
                  (event.readLine (lineContent buffer)).2 :=
              processLine_follows holds (short _ (List.mem_singleton.mpr rfl))
                (data_bounded [] _ fun closed own => bounded closed (List.mem_append_right _ own))
            obtain ⟨middle, messages, processed, follows⟩ := step
            refine ⟨before, [], buffer, (dispatch middle).1, messages ++ (dispatch middle).2, frames,
              fun fed => ?_, _, follows.trans (dispatch_follows follows.holds)⟩
            rw [SseFramingParser.finish, if_neg empty]
            dsimp only
            rw [processed]
      | some found =>
          obtain ⟨line, rest⟩ := found
          rw [linesFrom_some cut, SseEvent.eventsFrom] at bounded few ⊢
          rw [linesFrom_some cut] at short
          obtain ⟨own, others⟩ := List.forall_mem_cons.mp short
          have later := fun closed own => bounded closed (List.mem_append_right _ own)
          obtain ⟨middle, messages, processed, follows⟩ :=
            processLine_follows holds own (data_bounded _ _ later)
          have counted := follows.counted
          have fewer := follows.fewer
          rw [List.length_append] at few
          obtain ⟨after, first, left, last, second, frames, finishes, next, whole⟩ :=
            ih rest.length (size ▸ nextLine_shorter cut) rest middle _ follows.holds others later
              (by omega) rfl
          have round : lineRound limits (before, []) buffer =
              .ok (.again (middle, [] ++ messages) rest) := by
            rw [lineRound, cut]
            simp only [processed]
            rw [if_neg (by omega)]
          obtain ⟨produced, same, run⟩ := accepts_collected frames ([] ++ messages)
          have same : first = produced := same
          rw [← same] at run
          refine ⟨after, messages ++ first, left, last, second, .again round run, finishes, next, ?_⟩
          rw [List.append_assoc]
          exact follows.trans whole

theorem reduceAll_collect (state messages : List SseMessage) :
    collectDialect.reduceAll state messages = .ok (state ++ messages) := by
  rw [SseDialect.reduceAll]
  induction messages generalizing state with
  | nil =>
      rw [List.append_nil]
      rfl
  | cons message rest ih =>
      rw [List.foldlM_cons, collectDialect]
      exact (ih _).trans (by rw [List.append_assoc]; rfl)

theorem deliver_ok {chunks : List Bytes} (within : WithinLimits limits chunks.flatten) :
    ∃ messages, deliver limits chunks = .ok messages ∧
      messages.map (fun message => (message.event, message.data)) =
        (sseEvents chunks.flatten).filterMap SseEvent.shown ∧
      ((∀ event ∈ sseEvents chunks.flatten, event.Plain) →
        messages = SseEvent.carried false (sseEvents chunks.flatten)) := by
  obtain ⟨after, first, rest, last, second, frames, finishes, next, follows⟩ :=
    delivers limits chunks.flatten {} {} ⟨rfl, rfl⟩ within.lines within.data
      ((Nat.zero_add _).trans_le within.count)
  refine ⟨first ++ second, ?_, follows.shown, fun plain => (follows.plain false ⟨rfl, rfl⟩ plain).2⟩
  have fits : 0 + chunks.flatten.length ≤ limits.maxTotalBytes := by
    rw [Nat.zero_add]
    exact within.total
  have fed : Fed collectDialect ⟨{ limits := limits }, [], 0⟩ chunks.flatten
      ⟨⟨limits, rest, after, 0 + chunks.flatten.length⟩, first, 0 + chunks.flatten.length⟩ :=
    ⟨fits, after, first, rest, first, frames, reduceAll_collect [] first, rfl⟩
  have settled : Settled (⟨{ limits := limits }, [], 0⟩ : SseParser (List SseMessage)) :=
    ⟨rfl, rfl, Nat.zero_le _⟩
  rw [deliver, SseDialect.stream, (feedAll_ok settled chunks).mpr fed]
  dsimp only
  rw [SseDialect.finish]
  dsimp only
  rw [finishes]
  dsimp only
  rw [reduceAll_collect]
  rfl

theorem filterMap_eq_map {α β : Type} {f : α → Option β} {g : α → β} {items : List α}
    (same : items.filterMap f = items.map g) : ∀ item ∈ items, f item = some (g item) := by
  induction items with
  | nil => exact fun item never => (List.not_mem_nil never).elim
  | cons first rest ih =>
      cases found : f first with
      | none =>
          have short := List.length_filterMap_le f rest
          have lengths := congrArg List.length same
          rw [List.filterMap_cons_none found, List.length_map, List.length_cons] at lengths
          omega
      | some value =>
          rw [List.filterMap_cons_some found, List.map_cons, List.cons.injEq] at same
          exact List.forall_mem_cons.mpr ⟨by rw [found, same.1], ih same.2⟩

theorem closed_open {line : Bytes} {event closed : SseEvent} (own : closed ∈ (event.readLine line).2) :
    ¬ (closed.event = [] ∧ closed.values = []) := by
  rw [SseEvent.readLine, SseEvent.close] at own
  split at own
  · split at own
    · cases own
    · next open_ => exact List.mem_singleton.mp own ▸ open_
  · split at own <;> cases own

theorem event_open {lines : List Bytes} {event closed : SseEvent}
    (own : closed ∈ event.eventsFrom lines) : ¬ (closed.event = [] ∧ closed.values = []) := by
  induction lines generalizing event with
  | nil =>
      have last : closed ∈ (event.readLine []).2 := own
      exact closed_open last
  | cons line rest ih =>
      rw [SseEvent.eventsFrom, List.mem_append] at own
      cases own with
      | inl here => exact closed_open here
      | inr later => exact ih later

/-- Within the limits, the messages of a stream are those of the reference if and only if no event
begins its data with an empty line, other than an event with a name that has only that line, and
none without an id comes after one that has an id. -/
theorem delivers_reference_iff {chunks : List Bytes}
    (within : WithinLimits limits chunks.flatten) :
    deliver limits chunks = .ok (reference chunks.flatten) ↔
      (∀ event ∈ sseEvents chunks.flatten, event.Plain) ∧
        IdsStay (sseEvents chunks.flatten) := by
  obtain ⟨messages, delivered, shown, plain⟩ := deliver_ok within
  rw [delivered]
  constructor
  · intro same
    have all : ∀ event ∈ sseEvents chunks.flatten, event.Plain := by
      intro event own
      rw [Except.ok.inj same, reference, List.map_map] at shown
      exact (SseEvent.shown_iff event (event_open own)).mp (filterMap_eq_map shown.symm event own)
    exact ⟨all, (carried_reference _).mp ((plain all).symm.trans (Except.ok.inj same))⟩
  · rintro ⟨all, stay⟩
    rw [plain all, (carried_reference _).mpr stay, reference]

def dataLines (texts : List Bytes) : Bytes :=
  (texts.flatMap fun text => ascii "data: " ++ text ++ [10]) ++ [10]

theorem events_dataLines {texts : List Bytes} (present : texts ≠ [])
    (plain : ∀ text ∈ texts, ∀ c ∈ text, isLineEnd c = false) :
    sseEvents (dataLines texts) = [{ values := texts }] := by
  have spelled : ascii "data: " = [100, 97, 116, 97, 58, 32] := by decide
  have lines : sseLines (dataLines texts) = texts.map (ascii "data: " ++ ·) ++ [[]] := by
    clear present
    rw [dataLines, sseLines]
    induction texts with
    | nil => rfl
    | cons text rest ih =>
        obtain ⟨own, others⟩ := List.forall_mem_cons.mp plain
        have content : ∀ c ∈ ascii "data: " ++ text, isLineEnd c = false := by
          intro c held
          rw [List.mem_append] at held
          cases held with
          | inl label =>
              rw [spelled] at label
              revert c
              simp [isLineEnd]
          | inr inside => exact own c inside
        rw [List.flatMap_cons, List.append_assoc (ascii "data: " ++ text), List.append_assoc,
          linesFrom_plain content, List.nil_append, List.singleton_append, List.cons_append,
          linesFrom, if_pos (by rfl), ih others, List.map_cons, List.cons_append]
        exact fun later same => by cases same
  have reads (values : List Bytes) (later : List Bytes) :
      SseEvent.eventsFrom { values := values } (later.map (ascii "data: " ++ ·) ++ [[]]) =
        SseEvent.eventsFrom { values := values ++ later } [[]] := by
    induction later generalizing values with
    | nil => rw [List.append_nil, List.map_nil, List.nil_append]
    | cons text rest ih =>
        have field : fieldOf (ascii "data: " ++ text) = (ascii "data", text) := by
          rw [spelled]
          rfl
        have read : SseEvent.readLine { values := values } (ascii "data: " ++ text) =
            ({ values := values ++ [text] }, []) := by
          have other : ascii "data" ≠ ascii "event" := by decide
          rw [SseEvent.readLine, field, SseEvent.readField, if_neg (by simp [spelled]),
            if_neg (by simp [spelled]), if_neg other, if_pos rfl]
        rw [List.map_cons, List.cons_append, SseEvent.eventsFrom, read, List.nil_append, ih,
          List.append_assoc, List.singleton_append]
  rw [sseEvents, lines, reads [] texts, List.nil_append, SseEvent.eventsFrom, SseEvent.readLine,
    if_pos rfl, SseEvent.close, if_neg fun both => present both.2]
  rfl

/-- Within the limits, a stream has the messages of its reference if and only if no event begins
its data with an empty line, other than a named event with that line alone, and none without an id
comes after one that has an id. A text that is sent
line by line comes back as one message if and only if its first line is not empty. -/
theorem framing_iff (limits : SseFramingLimits) :
    (∀ chunks, WithinLimits limits chunks.flatten →
      (deliver limits chunks = .ok (reference chunks.flatten) ↔
        (∀ event ∈ sseEvents chunks.flatten, event.Plain) ∧
          IdsStay (sseEvents chunks.flatten))) ∧
    ∀ texts chunks, texts ≠ [] → (∀ text ∈ texts, ∀ c ∈ text, isLineEnd c = false) →
      chunks.flatten = dataLines texts → WithinLimits limits chunks.flatten →
        (deliver limits chunks = .ok [⟨[], joinWith 10 texts, none, none⟩] ↔
          texts.head? ≠ some []) := by
  refine ⟨fun chunks within => delivers_reference_iff within, ?_⟩
  intro texts chunks present plain sent within
  have events := events_dataLines present plain
  have whole := delivers_reference_iff within
  rw [sent, reference, events] at whole
  refine whole.trans ?_
  simp [SseEvent.Plain, IdsStay]

theorem one_line_read :
    (deliver {} [dataLines [ascii "a"]] = .ok (reference (dataLines [ascii "a"])) ↔
      (∀ event ∈ sseEvents (dataLines [ascii "a"]), event.Plain) ∧
        IdsStay (sseEvents (dataLines [ascii "a"]))) ∧
    (deliver {} [dataLines [ascii "a"]] = .ok [⟨[], ascii "a", none, none⟩] ↔
      [ascii "a"].head? ≠ some []) := by
  have within : WithinLimits {} [dataLines [ascii "a"]].flatten :=
    ⟨by decide +kernel, by decide +kernel, by decide +kernel, by decide +kernel⟩
  exact ⟨(framing_iff {}).1 [dataLines [ascii "a"]] within,
    (framing_iff {}).2 [ascii "a"] [dataLines [ascii "a"]] (by simp) (by decide +kernel) (by simp)
      within⟩

/-- A text whose first line is empty. -/
theorem first_line_lost : ¬ ∀ chunks, WithinLimits {} chunks.flatten →
    deliver {} chunks = .ok (reference chunks.flatten) := by
  intro all
  have within : WithinLimits {} [dataLines [[], ascii "a"]].flatten :=
    ⟨by decide +kernel, by decide +kernel, by decide +kernel, by decide +kernel⟩
  have plain := ((delivers_reference_iff within).mp (all _ within)).1
    ⟨[], [[], ascii "a"], none, none⟩ (by decide +kernel)
  cases (plain rfl).1

/-- An id that was delivered stays behind empty. -/
example : deliver {} [ascii "id: 7\ndata: a\n\ndata: b\n\n"] =
    .ok [⟨[], ascii "a", some (ascii "7"), none⟩, ⟨[], ascii "b", some [], none⟩] := by
  decide +kernel

end Mira.Model
