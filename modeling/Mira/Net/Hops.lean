import Mira.Library.Checked
import Mira.Net.Messages

/-!
What one hop can do, and what holds of every hop of an exchange.
-/

namespace Mira.Net
open Mira Bytes Model HttpMessage

theorem splitAtText_eq {needle text before after : Bytes}
    (split_ : splitAtText needle text = some (before, after)) :
    text = before ++ (needle ++ after) := by
  induction text generalizing before with
  | nil => cases split_
  | cons c rest ih =>
      rw [splitAtText] at split_
      split at split_
      · next found =>
          cases split_
          obtain ⟨tail, same⟩ := List.isPrefixOf_iff_prefix.mp found
          rw [← same, List.drop_left]
          rfl
      · obtain ⟨⟨before', after'⟩, inner, same⟩ := Option.map_eq_some_iff.mp split_
        cases same
        exact congrArg (c :: ·) (ih inner)

structure UrlSound (url : Bytes) (parts : UrlParts) : Prop where
  scheme : parts.scheme = ascii "https" ∨ parts.scheme = ascii "http"
  path : ∃ rest, parts.pathQuery = 47 :: rest
  full : url ≠ []
  absolute : url.head? ≠ some 47

theorem path_of_pathQueryOf (path : Option Bytes) : ∃ rest, pathQueryOf path = 47 :: rest := by
  cases path with
  | none => exact ⟨[], rfl⟩
  | some path => exact ⟨path, rfl⟩

theorem head_of_scheme {scheme : Bytes}
    (known : lowercaseName scheme = ascii "https" ∨ lowercaseName scheme = ascii "http")
    (rest : Bytes) : (scheme ++ rest).head? ≠ some 47 := by
  cases scheme with
  | nil =>
      cases known with
      | inl https => cases https
      | inr http => cases http
  | cons c scheme =>
      intro slash
      cases Option.some.inj slash
      rw [lowercaseName, List.map_cons] at known
      cases known with
      | inl https => exact absurd (List.cons.inj https).1 (by decide)
      | inr http => exact absurd (List.cons.inj http).1 (by decide)

variable {parts : UrlParts}

theorem urlSound_of_parse {url : Bytes} (parsed : parseUrl url = .ok parts) :
    UrlSound url parts := by
  unfold parseUrl at parsed
  split at parsed
  · cases parsed
  · cases parsed
  · next scheme rest nonempty found =>
      dsimp only at parsed
      split at parsed
      · cases parsed
      · next known =>
          have schemes : lowercaseName scheme = ascii "https" ∨ lowercaseName scheme = ascii "http" := by
            by_contra neither
            rw [not_or] at neither
            exact known neither
          split at parsed
          · cases parsed
          · obtain ⟨⟨host, portText⟩, _, parsed⟩ := Checked.ok_of_bind parsed
            dsimp only at parsed
            split at parsed
            · cases parsed
            · obtain ⟨port, _, parsed⟩ := Checked.ok_of_bind parsed
              split at parsed
              · cases parsed
              · cases parsed
                have whole := splitAtText_eq found
                refine ⟨schemes, path_of_pathQueryOf _, ?_, ?_⟩
                · rw [whole]
                  exact fun none => nonempty (List.append_eq_nil_iff.mp none).1
                · rw [whole]
                  exact head_of_scheme schemes _

theorem split_last {separator : UInt8} {first second last last' : Bytes}
    (absent : separator ∉ last) (absent' : separator ∉ last')
    (same : first ++ separator :: last = second ++ separator :: last') :
    first = second ∧ last = last' := by
  rcases List.append_eq_append_iff.mp same with ⟨middle, whole, rest⟩ | ⟨middle, whole, rest⟩
  · cases middle with
    | nil => exact ⟨(whole.trans (List.append_nil _)).symm, (List.cons.inj rest).2⟩
    | cons c middle =>
        refine absurd ?_ absent
        rw [(List.cons.inj rest).2]
        exact List.mem_append_right _ (.head _)
  · cases middle with
    | nil => exact ⟨whole.trans (List.append_nil _), (List.cons.inj rest).2.symm⟩
    | cons c middle =>
        refine absurd ?_ absent'
        rw [(List.cons.inj rest).2]
        exact List.mem_append_right _ (.head _)

theorem origin_inj {other : UrlParts}
    (known : parts.scheme = ascii "https" ∨ parts.scheme = ascii "http")
    (known' : other.scheme = ascii "https" ∨ other.scheme = ascii "http")
    (same : parts.origin = other.origin) :
    parts.scheme = other.scheme ∧ parts.host = other.host ∧ parts.port = other.port := by
  have schemes : parts.scheme = other.scheme := by
    rw [UrlParts.origin, UrlParts.origin] at same
    rcases known with https | http
    · rcases known' with https' | http'
      · exact https.trans https'.symm
      · rw [https, http'] at same
        have fifth := congrArg (fun text => text[4]?) same
        exact absurd (Option.some.inj fifth) (by decide)
    · rcases known' with https' | http'
      · rw [http, https'] at same
        have fifth := congrArg (fun text => text[4]?) same
        exact absurd (Option.some.inj fifth) (by decide)
      · exact http.trans http'.symm
  have colon (port : Nat) : 58 ∉ decimal port := not_mem_of_all rfl (all_isDigit_decimal port)
  have tails := same
  rw [UrlParts.origin, UrlParts.origin, schemes] at tails
  simp only [List.append_assoc, List.append_cancel_left_eq] at tails
  obtain ⟨hosts, ports⟩ := split_last (colon parts.port) (colon other.port) tails
  refine ⟨schemes, hosts, ?_⟩
  rw [← decimalValue_decimal parts.port, ports, decimalValue_decimal]

theorem origin_ne_nil (parts : UrlParts) : parts.origin ≠ [] := by
  rw [UrlParts.origin]
  exact fun none => decimal_ne_nil _ (List.append_eq_nil_iff.mp none).2

/-- What is settled before a hop connects. -/
structure Planned (job : Job) (answers : HopAnswers) (route : Route) : Prop where
  request : checkRequest job.request = .ok ()
  parts : parseUrl job.request.url = .ok route.parts
  allowed : job.limits.allowedHosts = [] ∨ route.parts.host ∈ job.limits.allowedHosts
  direct : job.limits.proxy = none → route.proxy = none ∧
    ∀ address ∈ route.candidates,
      job.limits.allowPrivateEndpoints = true ∨ addressIsPrivate address = false
  proxied : ∀ config, job.limits.proxy = some config →
    (∃ proxy, parseUrl config.url = .ok proxy ∧ route.proxy = some proxy) ∧
    ∀ address ∈ route.candidates,
      config.allowPrivateEndpoint = true ∨ addressIsPrivate address = false

theorem allowed_of_check {allowed : List Bytes} {host : Bytes} {message : String}
    (passed : checkAllowlist allowed host message = .ok ()) : allowed = [] ∨ host ∈ allowed := by
  rw [checkAllowlist] at passed
  split at passed
  · cases passed
  · next free =>
      by_contra neither
      rw [not_or] at neither
      exact free neither

variable {candidates : List Address}

theorem public_of_resolve {answer : DnsAnswer} {allowPrivate : Bool} {label : String}
    (resolved : resolveCandidates answer allowPrivate label = .ok candidates) :
    ∀ address ∈ candidates, allowPrivate = true ∨ addressIsPrivate address = false := by
  cases answer with
  | failed => cases resolved
  | late => cases resolved
  | resolved addresses =>
      rw [resolveCandidates] at resolved
      split at resolved
      · cases resolved
      · cases resolved
        intro address present
        have passed := (List.mem_filter.mp present).2
        rw [Bool.or_eq_true, Bool.not_eq_true'] at passed
        exact passed

variable {answers : HopAnswers}

theorem proxy_of_resolve {config : ModelProxyConfig} {proxy : UrlParts}
    (resolved : resolveProxy config answers = .ok (proxy, candidates)) :
    parseUrl config.url = .ok proxy ∧ ∀ address ∈ candidates,
      config.allowPrivateEndpoint = true ∨ addressIsPrivate address = false := by
  obtain ⟨parts, parsed, resolved⟩ := Checked.ok_of_bind resolved
  split at resolved
  · cases resolved
  · obtain ⟨_, _, resolved⟩ := Checked.ok_of_bind resolved
    obtain ⟨found, own, same⟩ := Checked.ok_of_bind resolved
    cases same
    exact ⟨parsed, public_of_resolve own⟩

variable {job : Job} {route : Route}

theorem planned_of_plan (plan : planHop job answers = .ok route) : Planned job answers route := by
  obtain ⟨_, request, plan⟩ := Checked.ok_of_bind plan
  obtain ⟨authorization, _, plan⟩ := Checked.ok_of_bind plan
  obtain ⟨proxyAuthorization, _, plan⟩ := Checked.ok_of_bind plan
  obtain ⟨parts, parsed, plan⟩ := Checked.ok_of_bind plan
  obtain ⟨_, allowed, plan⟩ := Checked.ok_of_bind plan
  obtain ⟨candidates, resolved, plan⟩ := Checked.ok_of_bind plan
  split at plan
  · next direct =>
      cases plan
      refine ⟨request, parsed, allowed_of_check allowed, fun _ =>
        ⟨rfl, public_of_resolve resolved⟩, fun config given => ?_⟩
      rw [direct] at given
      cases given
  · next config given =>
      obtain ⟨⟨proxy, proxyCandidates⟩, found, plan⟩ := Checked.ok_of_bind plan
      cases plan
      obtain ⟨own, free⟩ := proxy_of_resolve found
      refine ⟨request, parsed, allowed_of_check allowed, fun direct => ?_, fun config' given' => ?_⟩
      · rw [given] at direct
        cases direct
      · rw [given] at given'
        cases given'
        exact ⟨⟨proxy, own, rfl⟩, free⟩

inductive WireOf (job : Job) (route : Route) : WireEvent → Prop
  | connect {address : Address} (among : address ∈ route.candidates) :
      WireOf job route (.connect address)
  | tunnel {text : Bytes} (same : text = connectText route) : WireOf job route (.tunnel text)
  | request {text : Bytes} (same : text = route.text job) : WireOf job route (.request text)

theorem wireOf_connectAny {connects : Nat → ConnectOutcome}
    (among : ∀ address ∈ candidates, address ∈ route.candidates) (index : Nat) :
    ∀ event ∈ (connectAny connects index candidates).1, WireOf job route event := by
  induction candidates generalizing index with
  | nil => exact fun event present => (by cases present)
  | cons address rest ih =>
      have first : WireOf job route (.connect address) := .connect (among address (.head _))
      have later := ih (fun next present => among next (.tail _ present)) (index + 1)
      intro event present
      rw [connectAny] at present
      split at present
      · exact later event present
      · cases present with
        | head => exact first
        | tail _ present => exact later event present
      · rw [List.mem_singleton.mp present]
        exact first
      · rw [List.mem_singleton.mp present]
        exact first

theorem wireOf_openTunnel : ∀ event ∈ (openTunnel route answers).1, WireOf job route event := by
  intro event present
  rw [openTunnel] at present
  split at present
  · rw [List.mem_singleton.mp present]
    exact .tunnel rfl
  · cases present

theorem wireOf_performHop {event : WireEvent} (present : event ∈ (performHop job answers).1) :
    ∃ route, planHop job answers = .ok route ∧ WireOf job route event := by
  rw [performHop] at present
  split at present
  · cases present
  · next route plan =>
      refine ⟨route, plan, ?_⟩
      have attempts : ∀ event ∈ (connectAny answers.connects 0 route.candidates).1,
          WireOf job route event := wireOf_connectAny (fun address among => among) 0
      have tunnel : ∀ event ∈ (openTunnel route answers).1, WireOf job route event :=
        wireOf_openTunnel
      dsimp only at present
      split at present
      · exact attempts event present
      · have both : event ∈ (connectAny answers.connects 0 route.candidates).1 ++
            (openTunnel route answers).1 → WireOf job route event := by
          intro among
          cases List.mem_append.mp among with
          | inl early => exact attempts event early
          | inr late => exact tunnel event late
        split at present
        · exact both present
        · split at present
          · exact both present
          · cases List.mem_append.mp present with
            | inl among => exact both among
            | inr last =>
                rw [List.mem_singleton.mp last]
                exact .request rfl

theorem redirected_of_performHop {next : Job}
    (redirected : (performHop job answers).2 = .redirected next) :
    ∃ route status location, planHop job answers = .ok route ∧
      job.redirectsFollowed < job.limits.maxRedirects ∧
      next = redirectJob job route.parts status location := by
  rw [performHop] at redirected
  split at redirected
  · cases redirected
  · next route plan =>
      dsimp only at redirected
      split at redirected
      · cases redirected
      · split at redirected
        · cases redirected
        · split at redirected
          · cases redirected
          · dsimp only at redirected
            rw [finishHop] at redirected
            split at redirected
            · cases redirected
            · split at redirected
              · cases redirected
              · split at redirected
                · split at redirected
                  · cases redirected
                  · split at redirected
                    · cases redirected
                    · next below =>
                        cases redirected
                        exact ⟨route, _, _, plan, Nat.lt_of_not_le below, rfl⟩
                · cases redirected

end Mira.Net
