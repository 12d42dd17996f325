import Mira.Checkpoint.Reducer
import Mira.Library.Paging

/-!
The publication of verified facts. The publisher validates a claim, scans the session for
its evidence, takes a lease and appends the fact. What it appends is read back as the
fact that was published exactly if the texts of the claim and of its scope are UTF-8: the
validation looks at single bytes only.
-/

namespace Mira.Checkpoint
open Mira Bytes Events

/-- The event store of a publisher. An answer may depend on how far the scan has come. -/
structure FactEventStore where
  read : Nat → MemoryEventStore.EventQuery → Answer MemoryEventStore.EventPage
  append : AppendRequest → Answer AppendReceipt

structure VerifiedFactLease where
  validate : PublishedTaskFact → EventEnvelope → OperationContext → Answer Unit

abbrev VerifiedFactLeaseAcquirer :=
  PublishedTaskFact → EventEnvelope → OperationContext → Answer (Option VerifiedFactLease)

structure VerifiedFactLimits where
  pageSize : Nat := 128
  maxEventsScanned : Nat := 4096

structure VerifiedFactPublisher where
  runtime : RuntimeId
  session : SessionId
  scope : MemoryScope
  events : Option FactEventStore
  acquire : Option VerifiedFactLeaseAcquirer
  limits : VerifiedFactLimits := {}

/-- What the context and the wall clock read during a publication. -/
structure PublicationReadings where
  atStart : ContextReading := {}
  startWall : Int
  atPage : Nat → ContextReading := fun _ => {}
  atAppend : ContextReading := {}
  appendWall : Int

def PublishedTaskFact.validAt (fact : PublishedTaskFact) (now : Int) : Bool :=
  fact.claim.validFrom ≤ now && now < fact.claim.validUntil

def factReady (reading : ContextReading) : Result Unit :=
  reading.check (factError .cancelled "fact publication cancelled")
    (factError .deadlineExceeded "fact publication deadline expired")

/-- The error of an exception inside the guarded block. -/
def factThrown : Error :=
  factError .internal "fact evidence, authority or store operation threw"

structure EvidenceScan where
  source : Option EventEnvelope := none
  after : Nat := 0
  scanned : Nat := 0

namespace EvidenceScan

/-- One page. A finished scan sees an empty last page. -/
def fetch (publisher : VerifiedFactPublisher) (store : FactEventStore)
    (readings : PublicationReadings) (scan : EvidenceScan) :
    Result (List EventEnvelope × Bool) :=
  if scan.source.isSome ∨ publisher.limits.maxEventsScanned ≤ scan.scanned then .ok ([], false)
  else
    match factReady (readings.atPage scan.scanned) with
    | .error reason => .error reason
    | .ok () =>
        let limit := min publisher.limits.pageSize
          (publisher.limits.maxEventsScanned - scan.scanned)
        let after := if scan.after = 0 then none else some scan.after
        match (store.read scan.scanned ⟨publisher.session, after, limit⟩).getD
            (.error factThrown) with
        | .error reason => .error reason
        | .ok page =>
            if limit < page.events.length ∨ (page.hasMore ∧ page.events.isEmpty) then
              .error (factError .dataLoss "fact evidence pagination is invalid")
            else .ok (page.events, page.hasMore)

def visit (publisher : VerifiedFactPublisher) (claim : VerifiedFactClaim) (scan : EvidenceScan)
    (event : EventEnvelope) : Result EvidenceScan :=
  if event.sessionId ≠ publisher.session ∨ event.sessionSequence ≤ scan.after then
    .error (factError .dataLoss "fact evidence stream is invalid")
  else
    .ok { source := if event.eventId = claim.evidenceEvent then some event else scan.source
          after := event.sessionSequence
          scanned := scan.scanned + 1 }

/-- Every page with more behind it holds an event, so the bound on the events bounds the
rounds. -/
def run (publisher : VerifiedFactPublisher) (store : FactEventStore)
    (readings : PublicationReadings) (claim : VerifiedFactClaim) :
    Option (Result EvidenceScan) :=
  Paging.scan (fetch publisher store readings) (visit publisher claim) (fun _ => .ok ())
    (publisher.limits.maxEventsScanned + 1) {}

end EvidenceScan

def findEvidence (publisher : VerifiedFactPublisher) (store : FactEventStore)
    (readings : PublicationReadings) (claim : VerifiedFactClaim) : Result EventEnvelope :=
  match EvidenceScan.run publisher store readings claim with
  | some (.ok scan) =>
      match scan.source with
      | some source => .ok source
      | none =>
          .error (factError
            (if scan.scanned = publisher.limits.maxEventsScanned then .resourceExhausted
              else .notFound)
            "fact evidence was not found within the scan budget")
  | some (.error reason) => .error reason
  | none => .error factThrown

def observationAgrees (claim : VerifiedFactClaim) (body : JsonValue) : Bool :=
  match integerMember body "observed_at", integerMember body "task_epoch",
      integerMember body "environment_epoch",
      (stringMember body "observation_id").bind
        (StrongId.parse : Bytes → Option ObservationId) with
  | some observedAt, some epoch, some environment, some observation =>
      0 < observedAt && observedAt ≤ claim.validFrom &&
        claim.validUntil - observedAt ≤ longestValidity && !observation.isNil &&
        0 ≤ epoch && 0 ≤ environment && epoch.toNat = claim.taskEpoch &&
        environment.toNat = claim.environmentEpoch
  | _, _, _, _ => false

def evidenceError (publisher : VerifiedFactPublisher) (claim : VerifiedFactClaim)
    (source : EventEnvelope) : Option Error :=
  if source.runtimeId ≠ publisher.runtime ∨ source.taskId ≠ some claim.task ∨
      source.payload.type ≠ ascii "ObservationRecorded" ∨
      digestString source.payload.data ≠ claim.evidenceDigest ∨
      8192 < source.payload.data.length then
    some (factError .invalidArgument "fact evidence identity, digest or time disagrees")
  else
    match parseJson source.payload.data with
    | .error _ => some (factError .invalidArgument "fact observation evidence is invalid")
    | .ok body =>
        if body.isObject = false then
          some (factError .invalidArgument "fact observation evidence is invalid")
        else if observationAgrees claim body = false then
          some (factError .invalidArgument "fact observation frame disagrees")
        else none

/-- The lease has to be there and to accept the fact. -/
def authorizeFact (acquire : VerifiedFactLeaseAcquirer) (fact : PublishedTaskFact)
    (source : EventEnvelope) (context : OperationContext) : Result Unit :=
  match (acquire fact source context).getD (.error factThrown) with
  | .error reason => .error reason
  | .ok none => .error (factError .invalidState "fact authority returned no lease")
  | .ok (some lease) => (lease.validate fact source context).getD (.error factThrown)

namespace VerifiedFactPublisher

def fact (publisher : VerifiedFactPublisher) (claim : VerifiedFactClaim) : PublishedTaskFact :=
  ⟨publisher.runtime, publisher.session, publisher.scope, claim⟩

def request (publisher : VerifiedFactPublisher) (claim : VerifiedFactClaim) : AppendRequest :=
  { eventId := claim.publicationId
    runtimeId := publisher.runtime
    sessionId := publisher.session
    taskId := some claim.task
    payload := payloadFor (publisher.fact claim) }

/-- The checks before the scan. -/
def frameError (publisher : VerifiedFactPublisher) (claim : VerifiedFactClaim)
    (context : OperationContext) (readings : PublicationReadings) : Option Error :=
  match validatePublished (publisher.fact claim) with
  | .error reason => some reason
  | .ok () =>
      if context.session ≠ publisher.session ∨ context.task ≠ claim.task ∨
          context.taskEpoch.toNat ≠ claim.taskEpoch ∨ context.operation.isNil then
        some (factError .invalidArgument "fact publication frame disagrees")
      else
        match factReady readings.atStart with
        | .error reason => some reason
        | .ok () =>
            if (publisher.fact claim).validAt readings.startWall then none
            else some (factError .deadlineExceeded "fact validity interval is not current")

/-- The scan, the lease and the checks before the append. -/
def authorityError (publisher : VerifiedFactPublisher) (store : FactEventStore)
    (acquire : VerifiedFactLeaseAcquirer) (claim : VerifiedFactClaim)
    (context : OperationContext) (readings : PublicationReadings) : Option Error :=
  match findEvidence publisher store readings claim with
  | .error reason => some reason
  | .ok source =>
      match evidenceError publisher claim source with
      | some reason => some reason
      | none =>
          match authorizeFact acquire (publisher.fact claim) source context with
          | .error reason => some reason
          | .ok () =>
              match factReady readings.atAppend with
              | .error reason => some reason
              | .ok () =>
                  if (publisher.fact claim).validAt readings.appendWall then none
                  else some (factError .deadlineExceeded "fact expired before publication")

end VerifiedFactPublisher

/-- What a publication appended, if it came so far, and what it returned. -/
structure Publication where
  appended : Option AppendRequest := none
  result : Result AppendReceipt

def factAcknowledged (claim : VerifiedFactClaim) (receipt : AppendReceipt) : Bool :=
  receipt.eventId = claim.publicationId && receipt.sessionSequence ≠ 0 &&
    (receipt.taskSequence.any fun sequence => sequence ≠ 0) &&
    (receipt.achieved = .processCrash || receipt.achieved = .powerLoss)

def VerifiedFactPublisher.publish (publisher : VerifiedFactPublisher) (claim : VerifiedFactClaim)
    (context : OperationContext) (readings : PublicationReadings) : Publication :=
  match publisher.events, publisher.acquire with
  | some store, some acquire =>
      if publisher.limits.pageSize = 0 ∨ 4096 < publisher.limits.pageSize ∨
          publisher.limits.maxEventsScanned = 0 then
        { result := .error (factError .invalidState
            "fact publisher requires a bounded store and authority") }
      else
        match publisher.frameError claim context readings with
        | some reason => { result := .error reason }
        | none =>
            match publisher.authorityError store acquire claim context readings with
            | some reason => { result := .error reason }
            | none =>
                let request := publisher.request claim
                match (store.append request).getD (.error factThrown) with
                | .error reason => ⟨some request, .error reason⟩
                | .ok receipt =>
                    if factAcknowledged claim receipt then ⟨some request, .ok receipt⟩
                    else
                      ⟨some request, .error (factError .dataLoss
                        "fact publication acknowledgement is invalid")⟩
  | _, _ =>
      { result := .error (factError .invalidState
          "fact publisher requires a bounded store and authority") }

theorem VerifiedFactPublisher.publish_appended {publisher : VerifiedFactPublisher}
    {claim : VerifiedFactClaim} {context : OperationContext} {readings : PublicationReadings}
    {request : AppendRequest}
    (appended : (publisher.publish claim context readings).appended = some request) :
    request = publisher.request claim ∧ validatePublished (publisher.fact claim) = .ok () := by
  simp only [publish] at appended
  split at appended
  · split at appended
    · cases appended
    · split at appended
      · cases appended
      · next framed =>
          have valid : validatePublished (publisher.fact claim) = .ok () := by
            simp only [frameError] at framed
            split at framed
            · cases framed
            · assumption
          split at appended
          · cases appended
          · refine ⟨?_, valid⟩
            split at appended
            · exact (Option.some.inj appended).symm
            · split at appended
              · exact (Option.some.inj appended).symm
              · exact (Option.some.inj appended).symm
  · cases appended

/-!
Published facts reach the projection. A payload is read back as the fact it was written
from exactly if the texts of the claim and of its scope are UTF-8; the validation, which
looks at single bytes, accepts others too.
-/

variable {event : EventEnvelope}

theorem parsePublishedTaskFact_payloadFor {fact : PublishedTaskFact}
    (valid : validatePublished fact = .ok ()) (small : fact.claim.validUntil < 2 ^ 63)
    (utf8 : FactTextsUtf8 fact) (published : event.eventId = fact.claim.publicationId)
    (runtime : event.runtimeId = fact.runtime) (session : event.sessionId = fact.session)
    (task : event.taskId = some fact.claim.task) (payload : event.payload = payloadFor fact) :
    parsePublishedTaskFact event = .ok fact := by
  have established := validatePublished_valid valid
  have short := payloadFor_short established small
  have parsed : parseJson (payloadFor fact).data = .ok (readDocument fact) := by
    rw [payloadFor_data]
    have portable : (JsonValue.object (factMembers fact)).Portable {} 32 :=
      factMembers_portable established small utf8
    exact parseJson_writeValue true {} _ portable (short.trans (by decide))
  have envelope : ¬ ((payloadFor fact).type ≠ ascii "TaskFactVerified" ∨
      8192 < (payloadFor fact).data.length ∨ (payloadFor fact).classification ≠ .critical) := by
    simp only [not_or, not_not, not_lt]
    exact ⟨rfl, short, rfl⟩
  have object_ : (readDocument fact).isObject = true := rfl
  rw [parsePublishedTaskFact, payload, if_neg envelope, parsed]
  simp only [object_, Bool.true_eq_false, if_false, factShapeError_document,
    factFrom_document established published, valid]
  rw [if_neg]
  simp only [not_or, not_not]
  exact ⟨runtime, session, task⟩

variable {document : JsonValue}

theorem stringMember_utf8 (formed : document.WellFormed) {key : String} {text : Bytes}
    (found : stringMember document key = some text) : ValidUtf8 text := by
  obtain ⟨value, listed, own⟩ := Option.bind_eq_some_iff.mp found
  cases formed.find listed with
  | string written valid =>
      cases own
      exact valid
  | _ => cases own

theorem memoryScopeFromJson_utf8 (formed : document.WellFormed) {scope : MemoryScope}
    (read : memoryScopeFromJson document = some scope) :
    ValidUtf8 scope.subjectId ∧ ∀ tenant ∈ scope.tenantId, ValidUtf8 tenant := by
  have subject : ValidUtf8 ((stringMember document "subject_id").getD []) := by
    cases found : stringMember document "subject_id" with
    | none => exact validUtf8_nil
    | some text => exact stringMember_utf8 formed found
  have tenant : ∀ tenant ∈ stringMember document "tenant_id", ValidUtf8 tenant :=
    fun _ found => stringMember_utf8 formed found
  simp only [memoryScopeFromJson] at read
  split at read
  · cases read
  · split at read
    · cases read
      exact ⟨subject, tenant⟩
    · obtain ⟨kind, _, own⟩ := Option.map_eq_some_iff.mp read
      cases own
      exact ⟨subject, tenant⟩

theorem factFrom_utf8 (formed : document.WellFormed) {fact : PublishedTaskFact}
    (read : factFrom event document = some fact) : FactTextsUtf8 fact := by
  obtain ⟨runtime, _, read⟩ := Option.bind_eq_some_iff.mp read
  obtain ⟨session, _, read⟩ := Option.bind_eq_some_iff.mp read
  obtain ⟨task, _, read⟩ := Option.bind_eq_some_iff.mp read
  obtain ⟨evidence, _, read⟩ := Option.bind_eq_some_iff.mp read
  obtain ⟨digest, _, read⟩ := Option.bind_eq_some_iff.mp read
  obtain ⟨scope, within, read⟩ := Option.bind_eq_some_iff.mp read
  obtain ⟨claim, claimed, read⟩ := Option.bind_eq_some_iff.mp read
  obtain ⟨_, _, read⟩ := Option.bind_eq_some_iff.mp read
  obtain ⟨key, _, read⟩ := Option.bind_eq_some_iff.mp read
  obtain ⟨value, stated, read⟩ := Option.bind_eq_some_iff.mp read
  obtain ⟨_, _, read⟩ := Option.bind_eq_some_iff.mp read
  obtain ⟨scope_, found, decoded⟩ := Option.bind_eq_some_iff.mp within
  cases read
  have scope_utf8 := memoryScopeFromJson_utf8 (formed.find found) decoded
  exact ⟨stringMember_utf8 (formed.find claimed) stated, scope_utf8.1, scope_utf8.2⟩

theorem parsePublishedTaskFact_utf8 {fact : PublishedTaskFact}
    (read : parsePublishedTaskFact event = .ok fact) : FactTextsUtf8 fact := by
  simp only [parsePublishedTaskFact] at read
  split at read
  · cases read
  · split at read
    · cases read
    · next document parsed =>
        split at read
        · cases read
        · split at read
          · cases read
          · split at read
            · cases read
            · next found decoded =>
                split at read
                · cases read
                · split at read
                  · cases read
                  · cases read
                    exact factFrom_utf8 (parseJson_wellFormed _ _ _ parsed) decoded

theorem applyEvent_published {fact : PublishedTaskFact}
    (read : parsePublishedTaskFact event = .ok fact) (config : CheckpointReducerConfig)
    (projection : Projection) : (applyEvent config projection event).2 ≠ .malformed := by
  have whole := read
  simp only [parsePublishedTaskFact] at read
  split at read
  · cases read
  · next envelope =>
      have type := not_not.mp (not_or.mp envelope).1
      have other : journalEventFrom (ascii "TaskFactVerified") = none := by decide
      have kind : taskEventFrom (ascii "TaskFactVerified") = some .factVerified := by
        decide
      split at read
      · cases read
      · next document parsed =>
          split at read
          · cases read
          · split at read
            · cases read
            · next shape =>
                have schema : (document.find (ascii "schema")).isSome = true := by
                  simp only [factShapeError] at shape
                  split at shape
                  · cases shape
                  · next named =>
                      obtain ⟨value, found, _⟩ := Option.bind_eq_some_iff.mp (not_not.mp named)
                      rw [found]
                      rfl
                have flat : unwrap projection .factVerified document event =
                    .ok (document, projection) := rfl
                simp only [applyEvent, type, other, parsed, kind, flat, applyJsonEvent, factOf,
                  schema, if_true, whole]
                split
                · next stale =>
                    split at stale
                    · cases stale
                      intro same
                      cases same
                    · cases stale
                · intro same
                  cases same

/-- When a publication reaches the projection. What a publisher appended is read back as
the published fact, and no reducer counts it as malformed, exactly if the value of the
claim and the subject and tenant of its scope are UTF-8. -/
theorem publication_readable_iff (publisher : VerifiedFactPublisher) (claim : VerifiedFactClaim)
    (context : OperationContext) (readings : PublicationReadings) (request : AppendRequest)
    (event : EventEnvelope) (small : claim.validUntil < 2 ^ 63)
    (appended : (publisher.publish claim context readings).appended = some request)
    (stored : sameRequest event request = true) :
    (parsePublishedTaskFact event =
        .ok ⟨publisher.runtime, publisher.session, publisher.scope, claim⟩ ∧
      ∀ config projection, (applyEvent config projection event).2 ≠ .malformed) ↔
      ValidUtf8 claim.value ∧ ValidUtf8 publisher.scope.subjectId ∧
        ∀ tenant ∈ publisher.scope.tenantId, ValidUtf8 tenant := by
  obtain ⟨own, valid⟩ := VerifiedFactPublisher.publish_appended appended
  subst own
  simp only [sameRequest, Bool.and_eq_true, decide_eq_true_eq] at stored
  obtain ⟨⟨⟨⟨⟨published, runtime⟩, session⟩, task⟩, _⟩, payload⟩ := stored
  constructor
  · intro read
    exact parsePublishedTaskFact_utf8 read.1
  · intro utf8
    have read := parsePublishedTaskFact_payloadFor valid small utf8 published runtime session task
      payload
    exact ⟨read, applyEvent_published read⟩

/-- An observation and a claim about it. -/
def doorObservation : EventEnvelope :=
  { eventId := .filled 4
    runtimeId := .filled 1
    sessionId := .filled 2
    taskId := some (.filled 3)
    sessionSequence := 1
    payload :=
      { type := ascii "ObservationRecorded"
        data := canonicalJsonString (.object
          [(ascii "observation_id", .string (StrongId.filled 8 : ObservationId).toString),
            (ascii "task_epoch", .integer 0), (ascii "environment_epoch", .integer 0),
            (ascii "observed_at", .integer 1)]) } }

def doorClaim (value : Bytes) : VerifiedFactClaim :=
  { publicationId := .filled 7
    task := .filled 3
    key := ascii "door"
    value := value
    evidenceEvent := .filled 4
    evidenceDigest := digestString doorObservation.payload.data
    verifier := ascii "camera"
    validFrom := 5
    validUntil := 50 }

/-- A store that holds the observation and an authority that accepts everything. -/
def openStore : FactEventStore :=
  { read := fun _ _ => some (.ok { events := [doorObservation] })
    append := fun request => some (.ok ⟨request.eventId, 2, some 1, 2, .processCrash⟩) }

def openAuthority : VerifiedFactLeaseAcquirer :=
  fun _ _ _ => some (.ok (some ⟨fun _ _ _ => some (.ok ())⟩))

def openPublisher : VerifiedFactPublisher :=
  { runtime := .filled 1
    session := .filled 2
    scope := { subjectId := ascii "kitchen" }
    events := some openStore
    acquire := some openAuthority }

def doorContext : OperationContext :=
  { session := .filled 2, task := .filled 3, operation := .filled 6 }

def doorReadings : PublicationReadings := { startWall := 10, appendWall := 11 }

theorem doorObservation_accepted (value : Bytes) :
    evidenceError openPublisher (doorClaim value) doorObservation = none := by
  rw [evidenceError, if_neg]
  · rfl
  · rw [not_or, not_or, not_or, not_or]
    exact ⟨not_not.mpr rfl, not_not.mpr rfl, not_not.mpr rfl, not_not.mpr rfl, by decide⟩

theorem openPublisher_publish {value : Bytes}
    (valid : validatePublished (openPublisher.fact (doorClaim value)) = .ok ()) :
    openPublisher.publish (doorClaim value) doorContext doorReadings =
      ⟨some (openPublisher.request (doorClaim value)),
        .ok ⟨.filled 7, 2, some 1, 2, .processCrash⟩⟩ := by
  have framed : openPublisher.frameError (doorClaim value) doorContext doorReadings = none := by
    rw [VerifiedFactPublisher.frameError, valid]
    rfl
  have found : findEvidence openPublisher openStore doorReadings (doorClaim value) =
      .ok doorObservation := rfl
  have authorized : openPublisher.authorityError openStore openAuthority (doorClaim value)
      doorContext doorReadings = none := by
    rw [VerifiedFactPublisher.authorityError, found]
    simp only [doorObservation_accepted]
    rfl
  have events : openPublisher.events = some openStore := rfl
  have acquire : openPublisher.acquire = some openAuthority := rfl
  simp only [VerifiedFactPublisher.publish, events, acquire, framed, authorized]
  rfl

/-- A plain value reaches the projection. -/
theorem plain_publication_readable :
    parsePublishedTaskFact (openPublisher.request (doorClaim (ascii "open"))).envelope =
      .ok (openPublisher.fact (doorClaim (ascii "open"))) := by
  have valid : validatePublished (openPublisher.fact (doorClaim (ascii "open"))) = .ok () := by
    decide +kernel
  have utf8 (text : Bytes) (low : ∀ b ∈ text, b.toNat < 128) : ValidUtf8 text :=
    validUtf8_printable_ascii text low
  refine ((publication_readable_iff openPublisher (doorClaim (ascii "open")) doorContext
    doorReadings (openPublisher.request (doorClaim (ascii "open")))
    (openPublisher.request (doorClaim (ascii "open"))).envelope (by decide)
    (congrArg Publication.appended (openPublisher_publish valid)) ?_).mpr
      ⟨utf8 _ ?_, utf8 _ ?_, ?_⟩).1
  · simp [sameRequest, AppendRequest.envelope]
  · decide +kernel
  · decide +kernel
  · intro tenant held
    cases held

/-- A value of one foreign byte is accepted and appended, and the reader refuses it. -/
theorem foreign_byte_malformed :
    openPublisher.publish (doorClaim [0xff]) doorContext doorReadings =
      ⟨some (openPublisher.request (doorClaim [0xff])),
        .ok ⟨.filled 7, 2, some 1, 2, .processCrash⟩⟩ ∧
    sameRequest (openPublisher.request (doorClaim [0xff])).envelope
      (openPublisher.request (doorClaim [0xff])) = true ∧
    parsePublishedTaskFact (openPublisher.request (doorClaim [0xff])).envelope =
      .error (factError .invalidArgument "verified fact payload is invalid") := by
  have valid : validatePublished (openPublisher.fact (doorClaim [0xff])) = .ok () := by
    decide +kernel
  exact ⟨openPublisher_publish valid, by simp [sameRequest, AppendRequest.envelope],
    by decide +kernel⟩

end Mira.Checkpoint
