import Mira.Net.Hops

/-!
Where the secrets and the requests of an exchange go, and when each request is read as it was
meant. The host and the target of a URL reach the request as they are, so that the headers are
checked for line breaks and the URL is not.
-/

namespace Mira.Net
open Mira Bytes Model HttpMessage

/-- The path and the query of a request target: of the target itself, or of its absolute form. -/
def targetPathQuery (target : Bytes) : Option Bytes :=
  if target.head? = some 47 then some target
  else (parseUrl target).toOption.map UrlParts.pathQuery

/-- Both URLs name the same scheme, host and port. -/
def SameEndpoint (url : Bytes) (parts : UrlParts) : Prop :=
  ∃ first, parseUrl url = .ok first ∧ parts.scheme = first.scheme ∧ parts.host = first.host ∧
    parts.port = first.port

/-- The rule for private addresses on the connection of a hop, the proxy's own where there is
one. -/
def AddressAllowed (limits : TransportLimits) (address : Address) : Prop :=
  (match limits.proxy with
    | none => limits.allowPrivateEndpoints
    | some config => config.allowPrivateEndpoint) = true ∨ addressIsPrivate address = false

structure RouteKept (request : HttpRequest) (limits : TransportLimits) (hop : Hop)
    (route : Route) : Prop where
  url : parseUrl hop.job.request.url = .ok route.parts
  policy : ∀ address, .connect address ∈ hop.events →
    (limits.allowedHosts = [] ∨ route.parts.host ∈ limits.allowedHosts) ∧
      AddressAllowed limits address
  -- The text of a hop to another endpoint is the one without the secret.
  secret : ∀ text, .request text ∈ hop.events → SameEndpoint request.url route.parts ∨
    text = Route.text { route with authorization := none } hop.job
  tunnelSecret : ∀ text, .tunnel text ∈ hop.events →
    text = connectText { route with authorization := none }
  headers : hop.job.request.headers = request.headers
  target : targetPathQuery (route.message hop.job).target = some route.parts.pathQuery
  message : ∀ text, .request text ∈ hop.events →
    parseRequest text = some (route.message hop.job).trimmed
  tunnel : ∀ text, .tunnel text ∈ hop.events →
    parseRequest text = some route.tunnelMessage.trimmed

structure ExchangeKept (request : HttpRequest) (limits : TransportLimits) (hops : List Hop) :
    Prop where
  redirects : hops.length ≤ limits.maxRedirects + 1
  hops : ∀ hop ∈ hops, hop.events = [] ∨
    ∃ route, planHop hop.job hop.answers = .ok route ∧ RouteKept request limits hop route

/-- The texts that a hop writes are clean. -/
def CleanHop (hop : Hop) : Prop :=
  ∀ route, planHop hop.job hop.answers = .ok route →
    ((∃ text, .tunnel text ∈ hop.events) → CleanTunnel route) ∧
    ((∃ text, .request text ∈ hop.events) → CleanRequest hop.job route)

structure Follows (request : HttpRequest) (limits : TransportLimits) (job : Job) : Prop where
  limits : job.limits = limits
  headers : job.request.headers = request.headers
  origin : (job.originalOrigin = [] ∧ job.request.url = request.url) ∨
    ∃ first, parseUrl request.url = .ok first ∧ job.originalOrigin = first.origin

theorem follows_start (request : HttpRequest) (limits : TransportLimits) :
    Follows request limits (startJob request limits) :=
  ⟨rfl, rfl, .inl ⟨rfl, rfl⟩⟩

variable {request : HttpRequest} {limits : TransportLimits} {job : Job} {parts : UrlParts}

theorem Follows.first (follows : Follows request limits job)
    (parsed : parseUrl job.request.url = .ok parts) :
    ∃ first, parseUrl request.url = .ok first ∧ job.origin parts = first.origin := by
  rcases follows.origin with ⟨fresh, same⟩ | ⟨first, own, origin⟩
  · exact ⟨parts, same ▸ parsed, if_pos fresh⟩
  · refine ⟨first, own, ?_⟩
    rw [Job.origin, origin, if_neg (origin_ne_nil first)]

theorem Follows.redirect (follows : Follows request limits job)
    (parsed : parseUrl job.request.url = .ok parts) (status : Int) (location : Bytes) :
    Follows request limits (redirectJob job parts status location) := by
  refine ⟨follows.limits, ?_, .inr (follows.first parsed)⟩
  rw [redirectJob]
  dsimp only
  split
  · exact follows.headers
  · exact follows.headers

/-- Every hop of an exchange starts from such a job and does what it can, and the redirects stay
below their limit. -/
theorem hops_follow (peers : List HopAnswers) (job : Job) (follows : Follows request limits job) :
    (∀ hop ∈ (performExchange job peers).1, Follows request limits hop.job ∧
      hop.events = (performHop hop.job hop.answers).1) ∧
    ((performExchange job peers).1.length ≤ limits.maxRedirects - job.redirectsFollowed + 1) := by
  induction peers generalizing job with
  | nil => exact ⟨fun hop present => (by cases present), Nat.zero_le _⟩
  | cons answers rest ih =>
      rw [performExchange]
      dsimp only
      split
      · refine ⟨fun hop present => ?_, by simp⟩
        rw [List.mem_singleton.mp present]
        exact ⟨follows, rfl⟩
      · next next redirected =>
          obtain ⟨route, status, location, plan, below, rfl⟩ := redirected_of_performHop redirected
          have parsed := (planned_of_plan plan).parts
          obtain ⟨later, short⟩ := ih _ (follows.redirect parsed status location)
          have followed : (redirectJob job route.parts status location).redirectsFollowed =
            job.redirectsFollowed + 1 := rfl
          rw [follows.limits] at below
          rw [followed] at short
          refine ⟨fun hop present => ?_, by simp only [List.length_cons]; omega⟩
          cases present with
          | head => exact ⟨follows, rfl⟩
          | tail _ among => exact later hop among

variable {route : Route}

theorem text_withheld (cross : route.crossOrigin job = true) :
    route.text job = Route.text { route with authorization := none } job := by
  have carried : route.credential job = none := if_pos cross
  have carried' : Route.credential { route with authorization := none } job = none := if_pos cross
  have fields : route.fields job = Route.fields { route with authorization := none } job := by
    rw [Route.fields, Route.fields, carried, carried']
    rfl
  rw [Route.text_eq, Route.text_eq, Route.message, Route.message, fields]
  rfl

theorem targetPathQuery_requestTarget (parsed : parseUrl job.request.url = .ok parts)
    (forwardProxy : Bool) :
    targetPathQuery (requestTarget job parts forwardProxy) = some parts.pathQuery := by
  have sound := urlSound_of_parse parsed
  cases forwardProxy with
  | false =>
      obtain ⟨rest, path⟩ := sound.path
      exact if_pos (by rw [requestTarget, path]; rfl)
  | true =>
      have absolute : targetPathQuery job.request.url =
          (parseUrl job.request.url).toOption.map UrlParts.pathQuery := if_neg sound.absolute
      exact absolute.trans (by rw [parsed]; rfl)

theorem requestTarget_ne_nil (parsed : parseUrl job.request.url = .ok parts) (forwardProxy : Bool) :
    requestTarget job parts forwardProxy ≠ [] := by
  have sound := urlSound_of_parse parsed
  cases forwardProxy with
  | false =>
      obtain ⟨rest, path⟩ := sound.path
      exact fun none => by cases path.symm.trans none
  | true => exact sound.full

theorem Follows.secret (follows : Follows request limits job)
    (parsed : parseUrl job.request.url = .ok route.parts) :
    SameEndpoint request.url route.parts ∨
      route.text job = Route.text { route with authorization := none } job := by
  cases cross : route.crossOrigin job with
  | true => exact .inr (text_withheld cross)
  | false =>
      obtain ⟨first, own, origin⟩ := follows.first parsed
      have same : route.parts.origin = first.origin := by
        rw [Route.crossOrigin, decide_eq_false_iff_not, not_not] at cross
        exact cross.trans origin
      exact .inl ⟨first, own, origin_inj (urlSound_of_parse parsed).scheme
        (urlSound_of_parse own).scheme same⟩

theorem wireOf_events {hop : Hop} (events : hop.events = (performHop hop.job hop.answers).1)
    (plan : planHop hop.job hop.answers = .ok route) {event : WireEvent}
    (present : event ∈ hop.events) : WireOf hop.job route event := by
  rw [events] at present
  obtain ⟨route', plan', of⟩ := wireOf_performHop present
  cases plan.symm.trans plan'
  exact of

theorem routeKept_of_texts {hop : Hop} (follows : Follows request limits hop.job)
    (events : hop.events = (performHop hop.job hop.answers).1)
    (plan : planHop hop.job hop.answers = .ok route) (message : ∀ text, .request text ∈ hop.events →
      parseRequest text = some (route.message hop.job).trimmed)
    (tunnel : ∀ text, .tunnel text ∈ hop.events →
      parseRequest text = some route.tunnelMessage.trimmed) :
    RouteKept request limits hop route := by
  have planned := planned_of_plan plan
  refine ⟨planned.parts, fun address present => ?_, fun text present => ?_,
    fun text present => ?_, follows.headers,
    targetPathQuery_requestTarget planned.parts route.forwardProxy, message, tunnel⟩
  · cases wireOf_events events plan present with
    | connect among =>
        refine ⟨follows.limits ▸ planned.allowed, ?_⟩
        rw [AddressAllowed, ← follows.limits]
        cases proxy : hop.job.limits.proxy with
        | none => exact (planned.direct proxy).2 address among
        | some config => exact (planned.proxied config proxy).2 address among
  · cases wireOf_events events plan present with
    | request same => exact (follows.secret planned.parts).imp_right same.trans
  · cases wireOf_events events plan present with
    | tunnel same => exact same

/-- An exchange keeps its promises exactly when nothing that goes into its texts breaks them. -/
theorem exchangeKept_iff_clean (request : HttpRequest) (limits : TransportLimits)
    (peers : List HopAnswers) :
    let hops := (performExchange (startJob request limits) peers).1
    ExchangeKept request limits hops ↔ ∀ hop ∈ hops, CleanHop hop := by
  obtain ⟨each, short⟩ := hops_follow peers _ (follows_start request limits)
  constructor
  · intro kept hop present route plan
    rcases kept.hops hop present with none | ⟨route', plan', own⟩
    · rw [none]
      exact ⟨fun ⟨text, absent⟩ => (by cases absent), fun ⟨text, absent⟩ => (by cases absent)⟩
    · cases plan.symm.trans plan'
      have planned := planned_of_plan plan
      obtain ⟨_, events⟩ := each hop present
      constructor
      · intro ⟨text, here⟩
        have parsed := own.tunnel text here
        cases wireOf_events events plan here with
        | tunnel same =>
            rw [same, connectText_eq] at parsed
            exact (valid_tunnel_iff route).mp ((parse_render_iff _).mp parsed)
      · intro ⟨text, here⟩
        have parsed := own.message text here
        cases wireOf_events events plan here with
        | request same =>
            rw [same, Route.text_eq] at parsed
            exact (valid_message_iff planned.request (requestTarget_ne_nil planned.parts _)).mp
              ((parse_render_iff _).mp parsed)
  · intro clean
    refine ⟨short, fun hop present => ?_⟩
    obtain ⟨follows, events⟩ := each hop present
    cases list : hop.events with
    | nil => exact .inl rfl
    | cons event rest =>
        have here : event ∈ (performHop hop.job hop.answers).1 := by
          rw [← events, list]
          exact .head _
        obtain ⟨route, plan, _⟩ := wireOf_performHop here
        have planned := planned_of_plan plan
        have own := clean hop present route plan
        refine .inr ⟨route, plan, routeKept_of_texts follows events plan (fun text among => ?_)
          fun text among => ?_⟩
        · have valid := (valid_message_iff planned.request
            (requestTarget_ne_nil planned.parts _)).mpr (own.2 ⟨text, among⟩)
          cases wireOf_events events plan among with
          | request same => rw [same, Route.text_eq, parse_render valid]
        · have valid := (valid_tunnel_iff route).mpr (own.1 ⟨text, among⟩)
          cases wireOf_events events plan among with
          | tunnel same => rw [same, connectText_eq, parse_render valid]

def injectingUrl : Bytes :=
  ascii "http://h/ HTTP/1.1" ++ crlf ++ ascii "X:1" ++ crlf ++ ascii "Y:"

def injectingRequest : HttpRequest := { method := ascii "GET", url := injectingUrl }

/-- A peer with a public address that accepts the connection and does not answer. -/
def silentPeer : HopAnswers where
  secret := denied "no secret"
  proxySecret := denied "no secret"
  endpointDns := .resolved [.inet 8 8 8 8]
  proxyDns := .failed
  connects := fun _ => .connected
  tunnel := denied "no proxy"
  tls := none
  response := denied "no response"
  body := denied "no response"

def injectingRoute : Route where
  authorization := none
  proxyAuthorization := none
  parts := ⟨ascii "http", ascii "h", 80, injectingUrl.drop 8, false⟩
  proxy := none
  candidates := [.inet 8 8 8 8]

theorem plan_injecting : planHop (startJob injectingRequest {}) silentPeer = .ok injectingRoute := by
  rfl

theorem fields_injecting :
    (parseRequest (injectingRoute.text (startJob injectingRequest {}))).map Message.fields =
      some [(ascii "X", ascii "1"), (ascii "Y", ascii "HTTP/1.1"), (ascii "Host", ascii "h"),
        (ascii "Content-Length", ascii "0"), (ascii "Connection", ascii "close"),
        (ascii "Accept", ascii "application/json, text/event-stream")] := by
  decide

/-- The promise fails on that URL. -/
theorem injecting_not_kept : ¬ ∀ request limits peers,
    ExchangeKept request limits (performExchange (startJob request limits) peers).1 := by
  intro kept
  have hops : (performExchange (startJob injectingRequest {}) [silentPeer]).1 =
      [⟨startJob injectingRequest {}, silentPeer, [.connect (.inet 8 8 8 8),
        .request (injectingRoute.text (startJob injectingRequest {}))]⟩] := rfl
  have own := (kept injectingRequest {} [silentPeer]).hops
  rw [hops] at own
  rcases own _ (.head _) with none | ⟨route, plan, promise⟩
  · cases none
  · cases plan_injecting.symm.trans plan
    have parsed := promise.message _ (.tail _ (.head _))
    have fields := fields_injecting
    rw [parsed] at fields
    exact absurd (congrArg (Option.map List.length) fields) (by decide)

end Mira.Net
