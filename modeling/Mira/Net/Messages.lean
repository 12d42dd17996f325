import Mira.Net.SocketTransport

/-!
The texts of a hop as messages, and which of them are read back as they were meant.
-/

namespace Mira.Net
open Mira Bytes Model HttpMessage

def credentialFields (scheme : HttpCredentialScheme) (secret : Bytes) : List (Bytes × Bytes) :=
  match scheme with
  | .apiKey => [(ascii "x-api-key", secret)]
  | .bearer => [(ascii "Authorization", ascii "Bearer " ++ secret)]

/-- The secret that the request of a hop carries. -/
def Route.credential (route : Route) (job : Job) : Option Bytes :=
  if route.crossOrigin job then none else route.authorization

/-- The secret that the proxy reads in the request of a hop. -/
def Route.proxyCredential (route : Route) : Option Bytes :=
  if route.forwardProxy then route.proxyAuthorization else none

def ownFields (job : Job) : List (Bytes × Bytes) :=
  [(ascii "Content-Length", decimal job.request.body.length),
    (ascii "Connection", if job.request.keepAlive then ascii "keep-alive" else ascii "close"),
    (ascii "Accept", ascii "application/json, text/event-stream")]

/-- The caller's headers among those of the transport. -/
def Route.fields (route : Route) (job : Job) : List (Bytes × Bytes) :=
  (ascii "Host", route.parts.host) :: (job.request.headers ++ (ownFields job ++
    ((route.credential job).elim [] (credentialFields job.request.credentialScheme) ++
      route.proxyCredential.elim [] fun secret => [(ascii "Proxy-Authorization", secret)])))

def Route.message (route : Route) (job : Job) : Message where
  method := job.request.method
  target := requestTarget job route.parts route.forwardProxy
  fields := route.fields job
  body := job.request.body

def Route.tunnelMessage (route : Route) : Message where
  method := ascii "CONNECT"
  target := route.authority
  fields := (ascii "Host", route.authority) :: (ascii "Proxy-Connection", ascii "keep-alive") ::
    route.proxyAuthorization.elim [] fun secret => [(ascii "Proxy-Authorization", secret)]
  body := []

variable (scheme : HttpCredentialScheme) (authorization : Option Bytes)

theorem authorizationText_eq :
    authorizationText scheme authorization =
      (authorization.elim [] (credentialFields scheme)).flatMap renderField := by
  cases authorization with
  | none => rfl
  | some secret =>
      cases scheme with
      | apiKey =>
          rw [Option.elim, credentialFields, List.flatMap_singleton]
          rfl
      | bearer =>
          rw [Option.elim, credentialFields, List.flatMap_singleton, renderField,
            ← List.append_assoc _ (ascii "Bearer ")]
          rfl

theorem proxyAuthorizationText_eq :
    proxyAuthorizationText authorization = (authorization.elim [] fun secret =>
      [(ascii "Proxy-Authorization", secret)]).flatMap renderField := by
  cases authorization with
  | none => rfl
  | some secret =>
      rw [Option.elim, List.flatMap_singleton]
      rfl

theorem ownFields_eq (job : Job) :
    (ownFields job).flatMap renderField =
      ascii "Content-Length: " ++ (decimal job.request.body.length ++ (crlf ++
        ((if job.request.keepAlive then ascii "Connection: keep-alive"
          else ascii "Connection: close") ++ (crlf ++
        (ascii "Accept: application/json, text/event-stream" ++ crlf))))) := by
  have connection : ascii "Connection" ++ ascii ": " ++
      (if job.request.keepAlive then ascii "keep-alive" else ascii "close") =
        if job.request.keepAlive then ascii "Connection: keep-alive"
        else ascii "Connection: close" := by
    cases job.request.keepAlive with
    | false => rfl
    | true => rfl
  rw [← connection, ownFields, List.flatMap_cons, List.flatMap_cons, List.flatMap_singleton]
  simp only [renderField, List.append_assoc]
  rfl

variable (text : Bytes)

theorem space_append : ascii " " ++ text = 32 :: text := rfl

theorem version_append : ascii " HTTP/1.1" ++ text = 32 :: (protocol ++ text) := rfl

theorem host_append :
    ascii "Host" ++ (ascii ": " ++ text) = ascii "Host: " ++ text := rfl

variable (route : Route)

theorem Route.text_eq (job : Job) : route.text job = (route.message job).render := by
  have credential : (if route.crossOrigin job then []
      else authorizationText job.request.credentialScheme route.authorization) =
      ((route.credential job).elim [] (credentialFields job.request.credentialScheme)).flatMap
        renderField := by
    rw [authorizationText_eq, Route.credential]
    cases route.crossOrigin job with
    | false => rfl
    | true => rfl
  have proxy : (if route.forwardProxy then proxyAuthorizationText route.proxyAuthorization
      else []) = (route.proxyCredential.elim [] fun secret =>
        [(ascii "Proxy-Authorization", secret)]).flatMap renderField := by
    rw [proxyAuthorizationText_eq, Route.proxyCredential]
    cases route.forwardProxy with
    | false => rfl
    | true => rfl
  have headers : (fun header : Bytes × Bytes => header.1 ++ ascii ": " ++ header.2 ++ crlf) =
      renderField := rfl
  -- The equation of a text as long as this one is slow to derive; its body is not.
  unfold Route.text requestText
  rw [credential, proxy, headers]
  simp only [Message.render, requestLine, Route.message, Route.fields, List.flatMap_cons,
    List.flatMap_append, ownFields_eq, renderField, List.append_assoc, List.cons_append,
    space_append, version_append, host_append]

theorem connectText_eq : connectText route = route.tunnelMessage.render := by
  rw [connectText, proxyAuthorizationText_eq, Message.render, requestLine]
  simp only [Route.tunnelMessage, List.flatMap_cons, renderField, List.append_assoc,
    List.append_nil, List.cons_append, version_append, host_append]
  rfl

/-- Nothing that goes into the request of a hop breaks its shape. -/
structure CleanRequest (job : Job) (route : Route) : Prop where
  target : (requestTarget job route.parts route.forwardProxy).all isVisible = true
  host : route.parts.host.all isFieldByte = true
  values : ∀ header ∈ job.request.headers, header.2.all isFieldByte = true
  framing : ∀ header ∈ job.request.headers,
    lowercaseName header.1 ≠ ascii "transfer-encoding"
  credential : ∀ secret, route.credential job = some secret → secret.all isFieldByte = true
  proxyCredential : ∀ secret, route.proxyCredential = some secret →
    secret.all isFieldByte = true

/-- Nothing that goes into the request for a tunnel breaks its shape. -/
structure CleanTunnel (route : Route) : Prop where
  host : route.parts.host.all isVisible = true
  proxyAuthorization : ∀ secret, route.proxyAuthorization = some secret →
    secret.all isFieldByte = true

theorem isToken_of_validHeaderName {name : Bytes} (valid : validHeaderName name = true) :
    isToken name = true := by
  rw [validHeaderName, Bool.and_eq_true, decide_eq_true_eq] at valid
  refine (isToken_iff name).mpr ⟨valid.1, List.all_eq_true.mpr fun c present => ?_⟩
  have own := List.all_eq_true.mp valid.2 c present
  rw [Bool.or_eq_true, Bool.or_eq_true, decide_eq_true_eq, decide_eq_true_eq] at own
  rw [isTokenByte, Bool.or_eq_true]
  rcases own with (alphanumeric | rfl) | rfl
  · exact .inl alphanumeric
  · exact .inr (by decide)
  · exact .inr (by decide)

theorem isToken_of_upper {method : Bytes} (full : method ≠ []) (upper : method.all isUpper = true) :
    isToken method = true := by
  refine (isToken_iff method).mpr ⟨full, List.all_eq_true.mpr fun c present => ?_⟩
  rw [isTokenByte, isAlphanumeric, List.all_eq_true.mp upper c present, Bool.or_true]
  rfl

theorem checked_request {request : HttpRequest} (passed : checkRequest request = .ok ()) :
    request.method ≠ [] ∧ request.method.all isUpper = true ∧
      ∀ header ∈ request.headers, validHeaderName header.1 = true ∧
        lowercaseName header.1 ∉ reservedHeaders := by
  rw [checkRequest] at passed
  split at passed
  · cases passed
  · next method =>
      rw [not_or, Bool.not_eq_false] at method
      split at passed
      · cases passed
      · next headers =>
          refine ⟨method.1, method.2, fun header present => ?_⟩
          rw [Bool.not_eq_true, List.any_eq_false] at headers
          have own := headers header present
          rw [Bool.not_eq_true, Bool.or_eq_false_iff, Bool.or_eq_false_iff, Bool.not_eq_false',
            decide_eq_false_iff_not] at own
          exact ⟨own.1.1, own.2⟩

variable (test : UInt8 → Bool)

theorem all_append_iff (first second : Bytes) :
    (first ++ second).all test = true ↔ first.all test = true ∧ second.all test = true := by
  rw [List.all_append, Bool.and_eq_true]

/-- A field of a credential: its name is reserved, and its value is as clean as the secret. -/
structure CredentialField (secret : Bytes) (field : Bytes × Bytes) : Prop where
  name : isToken field.1 = true
  reserved : lowercaseName field.1 ∈ reservedHeaders.drop 3
  value : field.2.all isFieldByte = true ↔ secret.all isFieldByte = true

variable (secret : Bytes)

theorem credentialFields_clean :
    ∃ field, credentialFields scheme secret = [field] ∧ CredentialField secret field := by
  cases scheme with
  | apiKey =>
      have name : isToken (ascii "x-api-key") = true := by decide
      have reserved : lowercaseName (ascii "x-api-key") ∈ reservedHeaders.drop 3 := by decide
      exact ⟨_, rfl, name, reserved, Iff.rfl⟩
  | bearer =>
      have name : isToken (ascii "Authorization") = true := by decide
      have reserved : lowercaseName (ascii "Authorization") ∈ reservedHeaders.drop 3 := by decide
      have bearer : (ascii "Bearer ").all isFieldByte = true := by decide
      refine ⟨_, rfl, name, reserved, (all_append_iff _ _ _).trans ?_⟩
      exact ⟨And.right, fun clean => ⟨bearer, clean⟩⟩

theorem proxyField_clean : CredentialField secret (ascii "Proxy-Authorization", secret) := by
  have name : isToken (ascii "Proxy-Authorization") = true := by decide
  have reserved : lowercaseName (ascii "Proxy-Authorization") ∈ reservedHeaders.drop 3 := by decide
  exact ⟨name, reserved, Iff.rfl⟩

inductive FieldOf (job : Job) (route : Route) : Bytes × Bytes → Prop
  | host : FieldOf job route (ascii "Host", route.parts.host)
  | header {header : Bytes × Bytes} (present : header ∈ job.request.headers) :
      FieldOf job route header
  | own {field : Bytes × Bytes} (present : field ∈ ownFields job) : FieldOf job route field
  | credential {secret : Bytes} {field : Bytes × Bytes}
      (given : route.credential job = some secret ∨ route.proxyCredential = some secret)
      (clean : CredentialField secret field) : FieldOf job route field

variable {job : Job} {field : Bytes × Bytes}

theorem fieldOf_of_mem {route : Route} (present : field ∈ route.fields job) :
    FieldOf job route field := by
  rw [Route.fields] at present
  cases present with
  | head => exact .host
  | tail _ rest =>
      cases List.mem_append.mp rest with
      | inl header => exact .header header
      | inr rest =>
          cases List.mem_append.mp rest with
          | inl own => exact .own own
          | inr rest =>
              cases List.mem_append.mp rest with
              | inl among =>
                  cases given : route.credential job with
                  | none => rw [given] at among; cases among
                  | some secret =>
                      rw [given] at among
                      obtain ⟨own, only, clean⟩ :=
                        credentialFields_clean job.request.credentialScheme secret
                      rw [Option.elim, only, List.mem_singleton] at among
                      exact .credential (.inl given) (among ▸ clean)
              | inr among =>
                  cases given : route.proxyCredential with
                  | none => rw [given] at among; cases among
                  | some secret =>
                      rw [given] at among
                      rw [Option.elim, List.mem_singleton] at among
                      exact .credential (.inr given) (among ▸ proxyField_clean secret)

theorem ownFields_clean (present : field ∈ ownFields job) :
    isToken field.1 = true ∧ field.2.all isFieldByte = true ∧
      lowercaseName field.1 ≠ ascii "transfer-encoding" := by
  have digits : (decimal job.request.body.length).all isFieldByte = true :=
    List.all_eq_true.mpr fun c among => isFieldByte_of_visible (isVisible_of_digit
      (List.all_eq_true.mp (all_isDigit_decimal _) c among))
  have connection : (if job.request.keepAlive then ascii "keep-alive" else ascii "close").all
      isFieldByte = true := by
    cases job.request.keepAlive with
    | false => decide
    | true => decide
  have accept : (ascii "application/json, text/event-stream").all isFieldByte = true := by decide
  simp only [ownFields, List.mem_cons, List.not_mem_nil, or_false] at present
  rcases present with rfl | rfl | rfl
  · exact ⟨(by decide : isToken (ascii "Content-Length") = true), digits,
      (by decide : lowercaseName (ascii "Content-Length") ≠ ascii "transfer-encoding")⟩
  · exact ⟨(by decide : isToken (ascii "Connection") = true), connection,
      (by decide : lowercaseName (ascii "Connection") ≠ ascii "transfer-encoding")⟩
  · exact ⟨(by decide : isToken (ascii "Accept") = true), accept,
      (by decide : lowercaseName (ascii "Accept") ≠ ascii "transfer-encoding")⟩

theorem FieldOf.name {route : Route} (passed : checkRequest job.request = .ok ())
    (of : FieldOf job route field) : isToken field.1 = true := by
  cases of with
  | host => exact (by decide : isToken (ascii "Host") = true)
  | header present =>
      exact isToken_of_validHeaderName ((checked_request passed).2.2 field present).1
  | own present => exact (ownFields_clean present).1
  | credential given clean => exact clean.name

theorem FieldOf.value {route : Route} (clean : CleanRequest job route)
    (of : FieldOf job route field) : field.2.all isFieldByte = true := by
  cases of with
  | host => exact clean.host
  | header present => exact clean.values field present
  | own present => exact (ownFields_clean present).2.1
  | credential given own =>
      cases given with
      | inl given => exact own.value.mpr (clean.credential _ given)
      | inr given => exact own.value.mpr (clean.proxyCredential _ given)

theorem FieldOf.plain {route : Route} (clean : CleanRequest job route)
    (of : FieldOf job route field) : lowercaseName field.1 ≠ ascii "transfer-encoding" := by
  cases of with
  | host => exact (by decide : lowercaseName (ascii "Host") ≠ ascii "transfer-encoding")
  | header present => exact clean.framing field present
  | own present => exact (ownFields_clean present).2.2
  | credential given own =>
      have apart : ascii "transfer-encoding" ∉ reservedHeaders.drop 3 := by decide
      exact fun same => apart (same ▸ own.reserved)

theorem valuesOf_length (passed : checkRequest job.request = .ok ()) (route : Route) :
    valuesOf (ascii "content-length") (route.fields job) = [decimal job.request.body.length] := by
  have headers : valuesOf (ascii "content-length") job.request.headers = [] := by
    refine valuesOf_eq_nil.mpr fun header present same => ?_
    have reserved : ascii "content-length" ∈ reservedHeaders := by decide
    have own : lowercaseName header.1 = ascii "content-length" := same
    exact ((checked_request passed).2.2 header present).2 (own ▸ reserved)
  have apart : ascii "content-length" ∉ reservedHeaders.drop 3 := by decide
  have credential : valuesOf (ascii "content-length")
      ((route.credential job).elim [] (credentialFields job.request.credentialScheme)) = [] := by
    refine valuesOf_eq_nil.mpr fun field present same => ?_
    cases given : route.credential job with
    | none => rw [given] at present; cases present
    | some secret =>
        obtain ⟨own, only, clean⟩ := credentialFields_clean job.request.credentialScheme secret
        rw [given, Option.elim, only, List.mem_singleton] at present
        exact apart (same ▸ present ▸ clean.reserved)
  have proxy : valuesOf (ascii "content-length") (route.proxyCredential.elim [] fun secret =>
      [(ascii "Proxy-Authorization", secret)]) = [] := by
    cases route.proxyCredential with
    | none => rfl
    | some secret => rfl
  have own : valuesOf (ascii "content-length") (ownFields job) =
      [decimal job.request.body.length] := rfl
  have host : valuesOf (ascii "content-length") [(ascii "Host", route.parts.host)] = [] := rfl
  rw [Route.fields, ← List.singleton_append, valuesOf_append, host, valuesOf_append, headers,
    valuesOf_append, own, valuesOf_append, credential, proxy]
  rfl

theorem valid_message_iff (passed : checkRequest job.request = .ok ()) {route : Route}
    (target : requestTarget job route.parts route.forwardProxy ≠ []) :
    (route.message job).Valid ↔ CleanRequest job route := by
  obtain ⟨full, upper, headers⟩ := checked_request passed
  constructor
  · intro valid
    have plain := valuesOf_eq_nil.mp (plain_of_bodyLength valid.length)
    have header {header : Bytes × Bytes} (present : header ∈ job.request.headers) :
        header ∈ (route.message job).fields := .tail _ (List.mem_append_left _ present)
    refine ⟨((isTarget_iff _).mp valid.target).2, valid.values _ (.head _),
      fun other present => valid.values other (header present),
      fun other present => plain other (header present), fun secret given => ?_,
      fun secret given => ?_⟩
    · obtain ⟨field, only, clean⟩ := credentialFields_clean job.request.credentialScheme secret
      refine clean.value.mp (valid.values field (.tail _ (List.mem_append_right _
        (List.mem_append_right _ (List.mem_append_left _ ?_)))))
      rw [given, Option.elim, only]
      exact .head _
    · refine (proxyField_clean secret).value.mp (valid.values _ (.tail _ (List.mem_append_right _
        (List.mem_append_right _ (List.mem_append_right _ ?_)))))
      rw [given]
      exact .head _
  · intro clean
    have plain : valuesOf (ascii "transfer-encoding") (route.message job).fields = [] :=
      valuesOf_eq_nil.mpr fun field present => (fieldOf_of_mem present).plain clean
    exact ⟨isToken_of_upper full upper, (isTarget_iff _).mpr ⟨target, clean.target⟩,
      fun field present => (fieldOf_of_mem present).name passed,
      fun field present => (fieldOf_of_mem present).value clean,
      bodyLength_trimmed plain (valuesOf_length passed route)⟩

theorem all_authority (colon : test 58 = true) (digit : ∀ c, isDigit c = true → test c = true)
    (route : Route) : route.authority.all test = true ↔ route.parts.host.all test = true := by
  have port : (decimal route.parts.port).all test = true :=
    List.all_eq_true.mpr fun c among =>
      digit c (List.all_eq_true.mp (all_isDigit_decimal _) c among)
  have separator : (ascii ":").all test = test 58 := Bool.and_true _
  rw [Route.authority, List.all_append, List.all_append, port, separator, colon, Bool.and_true,
    Bool.and_true]

theorem valid_tunnel_iff : route.tunnelMessage.Valid ↔ CleanTunnel route := by
  have visible := all_authority isVisible rfl (fun _ => isVisible_of_digit) route
  have full : route.authority ≠ [] := by
    rw [Route.authority]
    exact fun none => decimal_ne_nil _ (List.append_eq_nil_iff.mp none).2
  have proxied (secret : Bytes) (given : route.proxyAuthorization = some secret) :
      (ascii "Proxy-Authorization", secret) ∈ route.tunnelMessage.fields := by
    rw [Route.tunnelMessage, given]
    exact .tail _ (.tail _ (.head _))
  constructor
  · intro valid
    exact ⟨visible.mp ((isTarget_iff _).mp valid.target).2,
      fun secret given => valid.values _ (proxied secret given)⟩
  · intro clean
    have authority : route.authority.all isFieldByte = true :=
      List.all_eq_true.mpr fun c present => isFieldByte_of_visible
        (List.all_eq_true.mp (visible.mpr clean.host) c present)
    have each : ∀ field ∈ route.tunnelMessage.fields, isToken field.1 = true ∧
        field.2.all isFieldByte = true := by
      intro field present
      cases present with
      | head => exact ⟨(by decide : isToken (ascii "Host") = true), authority⟩
      | tail _ rest =>
          cases rest with
          | head =>
              exact ⟨(by decide : isToken (ascii "Proxy-Connection") = true),
                (by decide : (ascii "keep-alive").all isFieldByte = true)⟩
          | tail _ among =>
              cases given : route.proxyAuthorization with
              | none => rw [given] at among; cases among
              | some secret =>
                  rw [given] at among
                  have only := List.mem_singleton.mp among
                  subst only
                  exact ⟨(proxyField_clean secret).name, clean.proxyAuthorization secret given⟩
    refine ⟨(by decide : isToken (ascii "CONNECT") = true),
      (isTarget_iff _).mpr ⟨full, visible.mpr clean.host⟩,
      fun field present => (each field present).1, fun field present => (each field present).2, ?_⟩
    rw [Message.trimmed, Route.tunnelMessage]
    cases route.proxyAuthorization with
    | none => rfl
    | some secret => rfl

end Mira.Net
