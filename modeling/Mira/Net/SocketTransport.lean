import Mira.Library.HttpMessage
import Mira.Model.Contracts

/-!
The socket transport: one exchange with its redirects. A hop validates the request, resolves the
secrets and the addresses, connects, opens a tunnel where it has to, and writes one request; a
redirect starts the next hop from the URL the peer gave.
-/

namespace Mira.Net
open Mira Bytes Model HttpMessage

def transportError (code : ModelDomainCode) (message : String) (retryable : Bool) : ModelError :=
  makeModelError code (ascii message) retryable

def denied {α : Type} (message : String) : ModelResult α :=
  .error (transportError .endpointPolicyDenied message false)

inductive HttpCredentialScheme
  | bearer | apiKey

structure HttpRequest where
  method : Bytes := ascii "POST"
  url : Bytes
  headers : List (Bytes × Bytes) := []
  body : Bytes := []
  authorization : Option Bytes := none
  credentialScheme : HttpCredentialScheme := .bearer
  keepAlive : Bool := false

structure ModelProxyConfig where
  url : Bytes
  authorization : Option Bytes := none
  allowPrivateEndpoint : Bool := false
  allowedHosts : List Bytes := []

structure TransportLimits where
  maxRedirects : Nat := 2
  allowPrivateEndpoints : Bool := false
  allowedHosts : List Bytes := []
  proxy : Option ModelProxyConfig := none

structure UrlParts where
  scheme : Bytes
  host : Bytes
  port : Nat
  pathQuery : Bytes
  tls : Bool

def UrlParts.origin (parts : UrlParts) : Bytes :=
  parts.scheme ++ ascii "://" ++ parts.host ++ ascii ":" ++ decimal parts.port

def lowercaseName (name : Bytes) : Bytes := name.map lowerByte

def validHeaderName (name : Bytes) : Bool :=
  name ≠ [] && name.all fun c => isAlphanumeric c || c = 45 || c = 95

/-- What stands before and after the first occurrence of a text. -/
def splitAtText (needle : Bytes) : Bytes → Option (Bytes × Bytes)
  | [] => none
  | c :: rest =>
      if needle.isPrefixOf (c :: rest) then some ([], (c :: rest).drop needle.length)
      else (splitAtText needle rest).map fun split => (c :: split.1, split.2)

def isSpace (c : UInt8) : Bool := c = 32 || 9 ≤ c && c ≤ 13

/-- `std::stoul` in base ten: leading space, a sign, digits, and anything after them. -/
def stoul (text : Bytes) : Option Nat :=
  let text := text.dropWhile isSpace
  let negative := text.head? = some 45
  let digits := if negative ∨ text.head? = some 43 then text.tail else text
  let value := decimalValue (digits.takeWhile isDigit)
  if digits.takeWhile isDigit = [] ∨ 2 ^ 64 ≤ value then none
  else some (if negative then (2 ^ 64 - value) % 2 ^ 64 else value)

/-- The host and the text of the port. -/
def splitAuthority (authority : Bytes) : ModelResult (Bytes × Bytes) :=
  match authority with
  | 91 :: inner =>
      match splitAtByte 93 inner with
      | (_, none) => denied "ipv6 literal is malformed"
      | (host, some (58 :: port)) => .ok (host, port)
      | (host, some _) => .ok (host, [])
  | _ =>
      match splitAtByte 58 authority with
      | (host, none) => .ok (host, [])
      | (host, some port) => .ok (host, port)

def parsePort (tls : Bool) (text : Bytes) : ModelResult Nat :=
  if text = [] then .ok (if tls then 443 else 80)
  else
    match stoul text with
    | none => denied "url port is malformed"
    | some port =>
        if port = 0 ∨ 65535 < port then denied "url port is out of range" else .ok port

/-- The path with its query, from what follows the authority's slash. -/
def pathQueryOf : Option Bytes → Bytes
  | none => [47]
  | some path => 47 :: path

def parseUrl (url : Bytes) : ModelResult UrlParts :=
  match splitAtText (ascii "://") url with
  | none => denied "url must be absolute with a scheme"
  | some ([], _) => denied "url must be absolute with a scheme"
  | some (scheme, rest) =>
      let scheme := lowercaseName scheme
      let tls := scheme = ascii "https"
      if scheme ≠ ascii "https" ∧ scheme ≠ ascii "http" then
        denied "only http and https endpoints are accepted"
      else
        let authority := (splitAtByte 47 rest).1
        if authority = [] ∨ 64 ∈ authority then
          denied "url authority is empty or carries credentials"
        else do
          let (host, portText) ← splitAuthority authority
          if host = [] ∨ 32 ∈ host then denied "url host is malformed"
          let port ← parsePort tls portText
          let pathQuery := pathQueryOf (splitAtByte 47 rest).2
          if 35 ∈ pathQuery then denied "url fragments are not sent over the wire"
          pure ⟨scheme, host, port, pathQuery, tls⟩

inductive Address
  | inet (a b c d : UInt8)
  | inet6 (bytes : Fin 16 → UInt8)
  | other

def inetIsPrivate (a b : UInt8) : Bool :=
  a = 127 || a = 10 || a = 0 || (a = 172 && 16 ≤ b && b ≤ 31) || (a = 192 && b = 168) ||
    (a = 169 && b = 254) || (a = 100 && 64 ≤ b && b ≤ 127)

def addressIsPrivate : Address → Bool
  | .inet a b _ _ => inetIsPrivate a b
  | .inet6 bytes =>
      let zeroPrefix := (List.finRange 14).all fun i => bytes (i.castLE (by decide)) = 0
      if zeroPrefix && bytes 14 = 0 && bytes 15 = 1 then true
      else if bytes 0 = 0xFE && bytes 1 &&& 0xC0 = 0x80 then true
      else if bytes 0 &&& 0xFE = 0xFC then true
      else if bytes 10 = 0xFF && bytes 11 = 0xFF then inetIsPrivate (bytes 12) (bytes 13)
      else false
  | .other => true

inductive DnsAnswer
  | failed | late
  | resolved (addresses : List Address)

inductive ConnectOutcome
  | noSocket | refused | connected
  | failed (error : ModelError)

structure Response where
  status : Int
  headers : List (Bytes × Bytes)

structure HopAnswers where
  secret : ModelResult Bytes
  proxySecret : ModelResult Bytes
  endpointDns : DnsAnswer
  proxyDns : DnsAnswer
  connects : Nat → ConnectOutcome
  tunnel : ModelResult Int
  tls : Option (ModelResult Unit)
  response : ModelResult Response
  body : ModelResult Nat

structure Job where
  request : HttpRequest
  limits : TransportLimits
  redirectsFollowed : Nat := 0
  originalOrigin : Bytes := []

/-- What is settled before a hop connects. -/
structure Route where
  authorization : Option Bytes
  proxyAuthorization : Option Bytes
  parts : UrlParts
  proxy : Option UrlParts
  candidates : List Address

def reservedHeaders : List Bytes :=
  [ascii "host", ascii "content-length", ascii "connection", ascii "authorization",
    ascii "proxy-authorization", ascii "x-api-key"]

def hasLineBreak (text : Bytes) : Bool := 13 ∈ text || 10 ∈ text

def checkRequest (request : HttpRequest) : ModelResult Unit :=
  if request.method = [] ∨ request.method.all isUpper = false then
    denied "http method contains invalid characters"
  else if request.headers.any fun header => !validHeaderName header.1 ||
      hasLineBreak header.2 || lowercaseName header.1 ∈ reservedHeaders then
    denied "http request header is invalid or reserved"
  else .ok ()

def resolveAuthorization (job : Job) (answers : HopAnswers) : ModelResult (Option Bytes) :=
  match job.request.authorization with
  | none => .ok none
  | some _ => do
      let secret ← answers.secret
      if hasLineBreak secret then denied "authorization contains invalid characters"
      pure (some secret)

def resolveProxyAuthorization (job : Job) (answers : HopAnswers) : ModelResult (Option Bytes) :=
  match job.limits.proxy.bind ModelProxyConfig.authorization with
  | none => .ok none
  | some _ => do
      let secret ← answers.proxySecret
      if hasLineBreak secret then denied "proxy authorization contains invalid characters"
      pure (some secret)

def checkAllowlist (allowed : List Bytes) (host : Bytes) (message : String) : ModelResult Unit :=
  if allowed ≠ [] ∧ host ∉ allowed then denied message else .ok ()

def resolveCandidates (answer : DnsAnswer) (allowPrivate : Bool) (label : String) :
    ModelResult (List Address) :=
  match answer with
  | .failed =>
      .error (transportError .transportFailed (label ++ " dns resolution failed") true)
  | .late =>
      .error (transportError .modelDeadlineExceeded
        (label ++ " dns resolution exceeded its deadline") true)
  | .resolved addresses =>
      let resolved := addresses.filter fun address => allowPrivate || !addressIsPrivate address
      if resolved = [] then
        denied ("no policy-compliant address was resolved for the " ++ label)
      else .ok resolved

def resolveProxy (config : ModelProxyConfig) (answers : HopAnswers) :
    ModelResult (UrlParts × List Address) := do
  let parts ← parseUrl config.url
  if parts.tls = true ∨ parts.pathQuery ≠ [47] then
    .error (transportError .capabilityMismatch "proxy must be an http origin without a path" false)
  checkAllowlist config.allowedHosts parts.host "proxy host is not in the allowlist"
  let candidates ← resolveCandidates answers.proxyDns config.allowPrivateEndpoint "proxy"
  pure (parts, candidates)

/-- Everything before the first connection of a hop. -/
def planHop (job : Job) (answers : HopAnswers) : ModelResult Route := do
  checkRequest job.request
  let authorization ← resolveAuthorization job answers
  let proxyAuthorization ← resolveProxyAuthorization job answers
  let parts ← parseUrl job.request.url
  checkAllowlist job.limits.allowedHosts parts.host "endpoint host is not in the allowlist"
  let candidates ←
    resolveCandidates answers.endpointDns job.limits.allowPrivateEndpoints "endpoint"
  match job.limits.proxy with
  | none => pure ⟨authorization, proxyAuthorization, parts, none, candidates⟩
  | some config =>
      let (proxy, proxyCandidates) ← resolveProxy config answers
      pure ⟨authorization, proxyAuthorization, parts, some proxy, proxyCandidates⟩

def Job.origin (job : Job) (parts : UrlParts) : Bytes :=
  if job.originalOrigin = [] then parts.origin else job.originalOrigin

def Route.crossOrigin (route : Route) (job : Job) : Bool :=
  route.parts.origin ≠ job.origin route.parts

def Route.forwardProxy (route : Route) : Bool := route.proxy.isSome && !route.parts.tls

def Route.authority (route : Route) : Bytes :=
  route.parts.host ++ ascii ":" ++ decimal route.parts.port

def proxyAuthorizationText (proxyAuthorization : Option Bytes) : Bytes :=
  match proxyAuthorization with
  | none => []
  | some secret => ascii "Proxy-Authorization: " ++ secret ++ crlf

/-- The `CONNECT` request to a proxy. -/
def connectText (route : Route) : Bytes :=
  ascii "CONNECT " ++ route.authority ++ ascii " HTTP/1.1" ++ crlf ++ ascii "Host: " ++
    route.authority ++ crlf ++ ascii "Proxy-Connection: keep-alive" ++ crlf ++
    proxyAuthorizationText route.proxyAuthorization ++ crlf

def authorizationText (scheme : HttpCredentialScheme) (authorization : Option Bytes) : Bytes :=
  match authorization with
  | none => []
  | some secret =>
      (match scheme with
        | .apiKey => ascii "x-api-key: "
        | .bearer => ascii "Authorization: Bearer ") ++ secret ++ crlf

def requestTarget (job : Job) (parts : UrlParts) (forwardProxy : Bool) : Bytes :=
  if forwardProxy then job.request.url else parts.pathQuery

/-- The request that `finish_exchange` writes; credentials follow redirects only within the
original origin. -/
def requestText (job : Job) (parts : UrlParts) (authorization : Option Bytes) (crossOrigin : Bool)
    (forwardProxy : Bool) (proxyAuthorization : Option Bytes) : Bytes :=
  job.request.method ++ ascii " " ++ requestTarget job parts forwardProxy ++ ascii " HTTP/1.1" ++
    crlf ++ ascii "Host: " ++ parts.host ++ crlf ++
    job.request.headers.flatMap (fun header => header.1 ++ ascii ": " ++ header.2 ++ crlf) ++
    ascii "Content-Length: " ++ decimal job.request.body.length ++ crlf ++
    (if job.request.keepAlive then ascii "Connection: keep-alive" else ascii "Connection: close") ++
    crlf ++ ascii "Accept: application/json, text/event-stream" ++ crlf ++
    (if crossOrigin then [] else authorizationText job.request.credentialScheme authorization) ++
    (if forwardProxy then proxyAuthorizationText proxyAuthorization else []) ++
    crlf ++ job.request.body

def Route.text (route : Route) (job : Job) : Bytes :=
  requestText job route.parts route.authorization (route.crossOrigin job) route.forwardProxy
    route.proxyAuthorization

inductive WireEvent
  | connect (address : Address)
  | tunnel (text : Bytes)
  | request (text : Bytes)

structure HttpResponseInfo where
  status : Int
  headers : List (Bytes × Bytes)
  bodyBytes : Nat
  redirectsFollowed : Nat

inductive HopOutcome
  | finished (result : ModelResult HttpResponseInfo)
  | redirected (next : Job)

/-- The addresses tried one after the other, until one accepts or an error ends it. -/
def connectAny (connects : Nat → ConnectOutcome) (index : Nat) :
    List Address → List WireEvent × ModelResult Unit
  | [] =>
      ([], .error (transportError .transportFailed
        "no candidate address accepted the connection" true))
  | address :: rest =>
      match connects index with
      | .noSocket => connectAny connects (index + 1) rest
      | .refused =>
          let (events, result) := connectAny connects (index + 1) rest
          (.connect address :: events, result)
      | .connected => ([.connect address], .ok ())
      | .failed error => ([.connect address], .error error)

def openTunnel (route : Route) (answers : HopAnswers) : List WireEvent × ModelResult Unit :=
  if route.proxy.isSome && route.parts.tls then
    ([.tunnel (connectText route)], do
      let status ← answers.tunnel
      if status ≠ 200 then
        .error (transportError
          (if status = 407 then .authenticationFailed else .transportFailed)
          "proxy CONNECT request was rejected" (500 ≤ status)))
  else ([], .ok ())

def handshake (route : Route) (answers : HopAnswers) : ModelResult Unit :=
  if route.parts.tls then
    match answers.tls with
    | none =>
        .error (transportError .capabilityMismatch
          "https endpoint configured without a TLS channel factory" false)
    | some result => result
  else .ok ()

def isRedirect (status : Int) : Bool := status ∈ [301, 302, 303, 307, 308]

def nextUrl (parts : UrlParts) (location : Bytes) : Bytes :=
  if (ascii "http://").isPrefixOf location || (ascii "https://").isPrefixOf location then location
  else
    parts.scheme ++ ascii "://" ++ parts.host ++ ascii ":" ++ decimal parts.port ++
      (if location.head? = some 47 then [] else [47]) ++ location

def redirectJob (job : Job) (parts : UrlParts) (status : Int) (location : Bytes) : Job :=
  let request :=
    if status ≠ 307 ∧ status ≠ 308 then { job.request with method := ascii "GET", body := [] }
    else job.request
  { job with
    request := { request with url := nextUrl parts location }
    redirectsFollowed := job.redirectsFollowed + 1
    originalOrigin := job.origin parts }

def finishHop (job : Job) (route : Route) (answers : HopAnswers) : HopOutcome :=
  match answers.response with
  | .error error => .finished (.error error)
  | .ok response =>
      if response.status = 0 then
        .finished (.error (transportError .protocolViolation "malformed http status line" false))
      else if isRedirect response.status then
        match response.headers.find? (·.1 = ascii "location") with
        | none =>
            .finished (.error (transportError .protocolViolation
              "redirect carried no location header" false))
        | some location =>
            if job.limits.maxRedirects ≤ job.redirectsFollowed then
              .finished (denied "redirect chain exceeded the configured limit")
            else .redirected (redirectJob job route.parts response.status location.2)
      else
        .finished (answers.body.map fun bytes =>
          ⟨response.status, response.headers, bytes, job.redirectsFollowed⟩)

def performHop (job : Job) (answers : HopAnswers) : List WireEvent × HopOutcome :=
  match planHop job answers with
  | .error error => ([], .finished (.error error))
  | .ok route =>
      let (attempts, connected) := connectAny answers.connects 0 route.candidates
      match connected with
      | .error error => (attempts, .finished (.error error))
      | .ok () =>
          let (tunnel, opened) := openTunnel route answers
          match opened with
          | .error error => (attempts ++ tunnel, .finished (.error error))
          | .ok () =>
              match handshake route answers with
              | .error error => (attempts ++ tunnel, .finished (.error error))
              | .ok () =>
                  (attempts ++ tunnel ++ [.request (route.text job)], finishHop job route answers)

structure Hop where
  job : Job
  answers : HopAnswers
  events : List WireEvent

def performExchange : Job → List HopAnswers → List Hop × Option (ModelResult HttpResponseInfo)
  | _, [] => ([], none)
  | job, answers :: rest =>
      let (events, outcome) := performHop job answers
      match outcome with
      | .finished result => ([⟨job, answers, events⟩], some result)
      | .redirected next =>
          let (hops, result) := performExchange next rest
          (⟨job, answers, events⟩ :: hops, result)

def startJob (request : HttpRequest) (limits : TransportLimits) : Job :=
  { request := request, limits := limits }

end Mira.Net
