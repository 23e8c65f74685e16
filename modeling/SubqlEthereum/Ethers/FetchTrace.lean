import Mathlib.Data.List.Chain
import SubqlEthereum.Ethereum.ApiConnection

/-!
# The requests of a fetch

The loop of `_fetchData` with the requests it hands to `getUrl` written down, and whether it
cancels the running timeout.  `traceFetch_outcome` says that the loop ends as `runningFetch` does.

`fetch_requests` is about every server, for a connection that passes the checks and whose url is no
`data:` url: the attempts are numbered from zero and limited, each goes to the url of the one before
or to where that was redirected to, and a request with a body is never redirected.
-/

namespace SubqlEthereum.Ethers

open SubqlEthereum.External SubqlEthereum.JsonText

/-! ### The loop, traced -/

/-- A request, by its attempt and its url. -/
structure UrlRequest where
  attempt : ℕ
  url : String
deriving DecidableEq, Repr

/-- How a fetch went: its requests in order, whether the running timeout was cancelled, and how
it ended. -/
structure FetchRun (α : Type) where
  requests : List UrlRequest
  cancelled : Bool
  outcome : Except JsError α

/-- One more request, before the others. -/
def FetchRun.after {α : Type} (run : FetchRun α) (request : UrlRequest) : FetchRun α :=
  { run with requests := request :: run.requests }

/-- `error.response` of a caught error is not `null`. -/
def holdsResponse (e : JsError) : Bool :=
  match e.get "response" with
  | none | some .null => false
  | some _ => true

/-- The error that ends an attempt holds a response: that of the last throttled attempt does. -/
def attemptHoldsResponse (server : Server) (attemptLimit attempt : ℕ) (url : String)
    (e : JsError) : Bool :=
  match server attempt url with
  | .ok response => (response.statusCode = 429 && attempt + 1 = attemptLimit) || holdsResponse e
  | .error _ => holdsResponse e

/-- The response is the one that was asked for by a conditional header. -/
def ConnectionInfo.notModified (connection : ConnectionInfo) (response : GetUrlResponse) : Bool :=
  connection.allow304 && response.statusCode = 304

def ConnectionInfo.responseBody (connection : ConnectionInfo) (response : GetUrlResponse) :
    Option Bytes :=
  if connection.notModified response then none else response.body

/-- A response that is refused before it is processed. -/
def ConnectionInfo.refused (connection : ConnectionInfo) (response : GetUrlResponse) : Bool :=
  !connection.notModified response && !connection.errorPassThrough &&
    (response.statusCode < 200 || 300 ≤ response.statusCode)

section Loop

variable {α : Type} (logger : Logger) (connection : ConnectionInfo) (options : Options)
  (server : Server) (processFunc : Option Bytes → GetUrlResponse → Except JsError α)
  (attemptLimit : ℕ)

/-- `runningFetch` with its requests. -/
def traceFetch : ℕ → ℕ → String → FetchRun α
  | 0, _, url => ⟨[], false, .error (failedResponse logger options url)⟩
  | left + 1, attempt, url =>
    FetchRun.after
      (match tryAttempt connection options server attemptLimit attempt url with
      | .error e =>
        ⟨[], !attemptHoldsResponse server attemptLimit attempt url e,
          .error (missingResponse logger options url e)⟩
      | .ok (.again url) => traceFetch left (attempt + 1) url
      | .ok (.answered response) =>
        let body := connection.responseBody response
        if connection.refused response then
          ⟨[], true, .error (badResponse logger options url response body)⟩
        else
          match processFunc body response with
          | .ok result => ⟨[], true, .ok result⟩
          | .error e =>
            if JsError.throttleRetry e then
              match connection.tryAgain attempt url with
              | .error e => ⟨[], false, .error e⟩
              | .ok true => traceFetch left (attempt + 1) url
              | .ok false =>
                ⟨[], true, .error (processingError logger options url response body e)⟩
            else ⟨[], true, .error (processingError logger options url response body e)⟩)
      ⟨attempt, url⟩

/-- **The traced loop ends as the loop does.** -/
theorem traceFetch_outcome (left : ℕ) : ∀ (attempt : ℕ) (url : String),
    (traceFetch logger connection options server processFunc attemptLimit left attempt
        url).outcome =
      runningFetch logger connection options server processFunc attemptLimit left attempt url := by
  induction left with
  | zero =>
    intro attempt url
    rfl
  | succ left ih =>
    intro attempt url
    rw [traceFetch, runningFetch]
    cases tryAttempt connection options server attemptLimit attempt url with
    | error e => rfl
    | ok next =>
      cases next with
      | again location => exact ih (attempt + 1) location
      | answered response =>
        have hmodified : connection.notModified response = true ↔
            connection.allow304 = true ∧ response.statusCode = 304 := by
          simp [ConnectionInfo.notModified]
        have hbody : connection.responseBody response =
            if connection.allow304 = true ∧ response.statusCode = 304 then none
            else response.body := by
          simp only [ConnectionInfo.responseBody, hmodified]
        have hrefused : connection.refused response = true ↔
            ¬ (connection.allow304 = true ∧ response.statusCode = 304) ∧
              connection.errorPassThrough = false ∧
              (response.statusCode < 200 ∨ 300 ≤ response.statusCode) := by
          rw [← hmodified]
          simp [ConnectionInfo.refused, and_assoc]
        simp only [FetchRun.after, ← hrefused, ← hbody]
        by_cases h : connection.refused response = true
        · rw [if_pos h, if_pos h]
        · rw [if_neg h, if_neg h]
          cases processFunc (connection.responseBody response) response with
          | ok result => rfl
          | error e =>
            simp only
            by_cases hretry : JsError.throttleRetry e = true
            · rw [if_pos hretry, if_pos hretry]
              cases connection.tryAgain attempt url with
              | error e => rfl
              | ok again =>
                cases again with
                | false => rfl
                | true => exact ih (attempt + 1) url
            · rw [if_neg hretry, if_neg hretry]

/-! ### One attempt -/

/-- A redirection that is followed: of a request without a body, to an https url. -/
def Redirects (response : GetUrlResponse) (url : String) : Prop :=
  (response.statusCode = 301 ∨ response.statusCode = 302) ∧ options.method = "GET" ∧
    response.headers.lookup "location" = some url ∧ startsWith url "https:" = true

/-- A response that asks for another attempt: it is throttled, by its status or by the function
that processes it, and the callback does not object. -/
def Throttled (request : UrlRequest) (response : GetUrlResponse) : Prop :=
  ((response.statusCode = 429 ∧ request.attempt + 1 ≠ attemptLimit) ∨
      ∃ e, processFunc (connection.responseBody response) response = .error e ∧
        JsError.throttleRetry e = true) ∧
    connection.tryAgain request.attempt request.url = .ok true

/-- Why one request follows another. -/
def Follows (request next : UrlRequest) : Prop :=
  next.attempt = request.attempt + 1 ∧
    ∃ response, server request.attempt request.url = .ok response ∧
      (Redirects options response next.url ∨
        next.url = request.url ∧
          Throttled connection processFunc attemptLimit request response)

/-- A value the fetch ends with comes from the response to the last request, and the timeout is
cancelled. -/
def EndsWell (request : UrlRequest) (cancelled : Bool) (outcome : Except JsError α) : Prop :=
  ∀ result, outcome = .ok result → cancelled = true ∧ ∃ response,
    server request.attempt request.url = .ok response ∧
      processFunc (connection.responseBody response) response = .ok result

/-- Only an absolute location can be one for https. -/
theorem lookup_of_startsWith (headers : List (String × String))
    (h : startsWith ((headers.lookup "location").getD "") "https:" = true) :
    headers.lookup "location" = some ((headers.lookup "location").getD "") := by
  cases hlocation : headers.lookup "location" with
  | some location => rfl
  | none =>
    rw [hlocation] at h
    exact absurd h (by decide)

/-- What the `try` block leads to, and from which response. -/
theorem tryAttempt_ok (attempt : ℕ) (url : String) (next : Attempt)
    (h : tryAttempt connection options server attemptLimit attempt url = .ok next) :
    ∃ response, server attempt url = .ok response ∧
      (next = .answered response ∨
        (∃ location, next = .again location ∧ Redirects options response location) ∨
        (next = .again url ∧ response.statusCode = 429 ∧ attempt + 1 ≠ attemptLimit ∧
          connection.tryAgain attempt url = .ok true)) := by
  rw [tryAttempt] at h
  cases hserver : server attempt url with
  | error e =>
    rw [hserver] at h
    exact absurd h (by simp [bind, Except.bind])
  | ok response =>
    rw [hserver] at h
    refine ⟨response, rfl, ?_⟩
    simp only [bind, Except.bind] at h
    split_ifs at h with hredirect hlocation hstatus hlast
    · right
      left
      refine ⟨_, (Except.ok.inj h).symm, hredirect, hlocation.1, ?_, hlocation.2⟩
      exact lookup_of_startsWith response.headers hlocation.2
    · exact .inl (Except.ok.inj h).symm
    · cases hagain : connection.tryAgain attempt url with
      | error e =>
        rw [hagain] at h
        exact absurd h (by simp)
      | ok again =>
        rw [hagain] at h
        cases again with
        | false => exact .inl (Except.ok.inj h).symm
        | true => exact .inr (.inr ⟨(Except.ok.inj h).symm, hstatus, hlast, rfl⟩)
    · exact .inl (Except.ok.inj h).symm

/-- **One attempt** is the last one, or is followed by another for a reason. -/
theorem traceFetch_cases (left attempt : ℕ) (url : String) :
    (∃ cancelled outcome,
      traceFetch logger connection options server processFunc attemptLimit (left + 1) attempt url =
        ⟨[⟨attempt, url⟩], cancelled, outcome⟩ ∧
      EndsWell connection server processFunc ⟨attempt, url⟩ cancelled outcome) ∨
    ∃ next, Follows connection options server processFunc attemptLimit ⟨attempt, url⟩
        ⟨attempt + 1, next⟩ ∧
      traceFetch logger connection options server processFunc attemptLimit (left + 1) attempt url =
        (traceFetch logger connection options server processFunc attemptLimit left (attempt + 1)
          next).after ⟨attempt, url⟩ := by
  have hfails : ∀ (cancelled : Bool) (e : JsError),
      EndsWell connection server processFunc ⟨attempt, url⟩ cancelled
        (.error e : Except JsError α) :=
    fun cancelled e result h => absurd h (by simp)
  rw [traceFetch]
  cases htry : tryAttempt connection options server attemptLimit attempt url with
  | error e => exact .inl ⟨_, _, rfl, hfails _ _⟩
  | ok found =>
    obtain ⟨response, hserver, hfound⟩ :=
      tryAttempt_ok connection options server attemptLimit attempt url found htry
    rcases hfound with rfl | ⟨location, rfl, hredirects⟩ | ⟨rfl, hstatus, hlast, hagain⟩
    · simp only
      by_cases hrefused : connection.refused response = true
      · rw [if_pos hrefused]
        exact .inl ⟨_, _, rfl, hfails _ _⟩
      · rw [if_neg hrefused]
        cases hprocess : processFunc (connection.responseBody response) response with
        | ok result =>
          left
          refine ⟨true, .ok result, rfl, fun result' h => ⟨rfl, response, hserver, ?_⟩⟩
          rw [hprocess, h]
        | error e =>
          simp only
          by_cases hretry : JsError.throttleRetry e = true
          · rw [if_pos hretry]
            cases hagain : connection.tryAgain attempt url with
            | error e => exact .inl ⟨_, _, rfl, hfails _ _⟩
            | ok again =>
              cases again with
              | false => exact .inl ⟨_, _, rfl, hfails _ _⟩
              | true =>
                right
                exact ⟨url, ⟨rfl, response, hserver,
                  .inr ⟨rfl, .inr ⟨e, hprocess, hretry⟩, hagain⟩⟩, rfl⟩
          · rw [if_neg hretry]
            exact .inl ⟨_, _, rfl, hfails _ _⟩
    · exact .inr ⟨location, ⟨rfl, response, hserver, .inl hredirects⟩, rfl⟩
    · exact .inr ⟨url, ⟨rfl, response, hserver, .inr ⟨rfl, .inl ⟨hstatus, hlast⟩, hagain⟩⟩, rfl⟩

/-! ### The whole fetch -/

/-- The requests of a loop: numbered on, no more than are left, each following the one before. -/
theorem traceFetch_requests (left : ℕ) : ∀ (attempt : ℕ) (url : String),
    let run := traceFetch logger connection options server processFunc attemptLimit left attempt url
    run.requests.length ≤ left ∧
      run.requests.map (·.attempt) = List.range' attempt run.requests.length ∧
      (∀ request ∈ run.requests.head?, request = ⟨attempt, url⟩) ∧
      run.requests.IsChain (Follows connection options server processFunc attemptLimit) ∧
      ∀ result, run.outcome = .ok result → ∃ request, run.requests.getLast? = some request ∧
        EndsWell connection server processFunc request run.cancelled run.outcome := by
  induction left with
  | zero =>
    intro attempt url
    exact ⟨le_rfl, rfl, fun request h => absurd h (by simp [traceFetch]), .nil,
      fun result h => absurd h (by simp [traceFetch])⟩
  | succ left ih =>
    intro attempt url
    rcases traceFetch_cases logger connection options server processFunc attemptLimit left attempt
      url with ⟨cancelled, outcome, heq, hends⟩ | ⟨next, hfollows, heq⟩
    · simp only [heq]
      refine ⟨by simp, rfl, ?_, .singleton _, fun result h => ⟨_, rfl, hends⟩⟩
      intro request h
      exact (Option.some.inj h).symm
    · obtain ⟨hlength, hattempts, hhead, hchain, hlast⟩ := ih (attempt + 1) next
      simp only [heq, FetchRun.after]
      generalize traceFetch logger connection options server processFunc attemptLimit left
        (attempt + 1) next = run at hlength hattempts hhead hchain hlast
      refine ⟨by simpa using hlength, ?_, ?_, ?_, ?_⟩
      · rw [List.map_cons, hattempts, List.length_cons, List.range'_succ]
      · intro request h
        exact (Option.some.inj h).symm
      · cases hrequests : run.requests with
        | nil => exact .singleton _
        | cons request rest =>
          rw [hrequests] at hchain hhead
          rw [List.isChain_cons_cons]
          refine ⟨?_, hchain⟩
          rw [hhead request rfl]
          exact hfollows
      · intro result h
        obtain ⟨request, hrequest, hends⟩ := hlast result h
        refine ⟨request, ?_, hends⟩
        rw [List.getLast?_cons, hrequest]
        rfl

end Loop

/-- The run of `_fetchData` for a connection that passed its checks, credentials included, and whose
url is no `data:` url.  It goes on after the running timeout has come. -/
def fetchRun {α : Type} (logger : Logger) (connection : ConnectionInfo) (body : Option Bytes)
    (processFunc : Option Bytes → GetUrlResponse → Except JsError α) (server : Server) :
    FetchRun α :=
  traceFetch logger connection (connection.options logger body) server processFunc
    connection.attemptLimit.toNat connection.attemptLimit.toNat 0 connection.url

/-- Every request goes to the url of the connection or, without a body, to one for https. -/
theorem fetchRun_urls {α : Type} (logger : Logger) (connection : ConnectionInfo)
    (body : Option Bytes) (processFunc : Option Bytes → GetUrlResponse → Except JsError α)
    (server : Server) :
    ∀ request ∈ (fetchRun logger connection body processFunc server).requests,
      request.url = connection.url ∨ body = none ∧ startsWith request.url "https:" = true := by
  obtain ⟨-, -, hhead, hchain, -⟩ := traceFetch_requests logger connection
    (connection.options logger body) server processFunc connection.attemptLimit.toNat
    connection.attemptLimit.toNat 0 connection.url
  refine List.IsChain.induction (fun request => request.url = connection.url ∨
    body = none ∧ startsWith request.url "https:" = true) _ hchain ?_ ?_
  · intro request next hfollows hrequest
    obtain ⟨-, response, -, hredirects | ⟨hsame, -⟩⟩ := hfollows
    · right
      refine ⟨?_, hredirects.2.2.2⟩
      have hmethod : (if body.isSome then "POST" else "GET") = "GET" := hredirects.2.1
      cases body with
      | none => rfl
      | some bytes => exact absurd hmethod (by simp)
    · rw [hsame]
      exact hrequest
  · intro hne
    left
    rw [hhead _ (List.head?_eq_some_head hne)]

/-- **What a fetch sends.**  For every server, and a connection with a positive throttle limit and
slot interval: the outcome is that of `_fetchData` without the timeout.  The fetch makes between
one request and as many as the limit allows, numbered from zero; each follows the one before, to
its url when that was throttled or to where it was redirected.  Every request goes to the url of
the connection or, when there is no body, to one for https.  A value comes from processing the
response to the last request, and then the timeout is cancelled. -/
theorem fetch_requests {α : Type} (logger : Logger) (connection : ConnectionInfo)
    (body : Option Bytes) (processFunc : Option Bytes → GetUrlResponse → Except JsError α)
    (server : Server) (hlimit : 0 < connection.attemptLimit)
    (hslot : 0 < connection.slotInterval) :
    let run := fetchRun logger connection body processFunc server
    fetchData logger connection body processFunc server none = run.outcome ∧
      0 < run.requests.length ∧ run.requests.length ≤ connection.attemptLimit ∧
      run.requests.map (·.attempt) = List.range run.requests.length ∧
      run.requests.IsChain (Follows connection (connection.options logger body) server processFunc
        connection.attemptLimit.toNat) ∧
      (∀ request ∈ run.requests, request.url = connection.url ∨
        body = none ∧ startsWith request.url "https:" = true) ∧
      ∀ result, run.outcome = .ok result → run.cancelled = true ∧
        ∃ request response, run.requests.getLast? = some request ∧
          server request.attempt request.url = .ok response ∧
          processFunc (connection.responseBody response) response = .ok result := by
  intro run
  obtain ⟨hlength, hattempts, -, hchain, hlast⟩ := traceFetch_requests logger connection
    (connection.options logger body) server processFunc connection.attemptLimit.toNat
    connection.attemptLimit.toNat 0 connection.url
  have houtcome : fetchData logger connection body processFunc server none = run.outcome := by
    rw [fetchData, if_neg (by omega), if_neg (by omega)]
    exact (traceFetch_outcome _ _ _ _ _ _ _ _ _).symm
  have hpositive : 0 < run.requests.length := by
    obtain ⟨left, hleft⟩ : ∃ left, connection.attemptLimit.toNat = left + 1 :=
      ⟨connection.attemptLimit.toNat - 1, by omega⟩
    rcases traceFetch_cases logger connection (connection.options logger body) server processFunc
      connection.attemptLimit.toNat left 0 connection.url with ⟨cancelled, outcome, heq, -⟩ |
      ⟨next, -, heq⟩
    · show 0 < (traceFetch _ _ _ _ _ _ connection.attemptLimit.toNat 0 _).requests.length
      rw [hleft] at heq ⊢
      rw [heq]
      exact Nat.one_pos
    · show 0 < (traceFetch _ _ _ _ _ _ connection.attemptLimit.toNat 0 _).requests.length
      rw [hleft] at heq ⊢
      rw [heq]
      exact Nat.succ_pos _
  refine ⟨houtcome, hpositive, ?_, ?_, hchain, ?_, ?_⟩
  · have hle : run.requests.length ≤ connection.attemptLimit.toNat := hlength
    omega
  · rw [List.range_eq_range']
    exact hattempts
  · exact fetchRun_urls logger connection body processFunc server
  · intro result hresult
    obtain ⟨request, hrequest, hends⟩ := hlast result hresult
    obtain ⟨hcancelled, response, hserver, hprocess⟩ := hends result hresult
    exact ⟨hcancelled, request, response, hrequest, hserver, hprocess⟩

/-- A server that redirects once, is throttling once and then answers. -/
def redirectingServer : Server := fun attempt _ =>
  if attempt = 0 then
    .ok { statusCode := 301, headers := [("location", "https://rpc.new")] }
  else if attempt = 1 then .ok { statusCode := 429 }
  else .ok { statusCode := 200, body := some [] }

theorem fetch_requests_redirected :
    (fetchRun Ethereum.sampleLogger { url := "http://rpc" } none (fun _ _ => .ok ())
        redirectingServer).requests.map (·.url) = ["http://rpc", "https://rpc.new",
          "https://rpc.new"] ∧
      (fetchRun Ethereum.sampleLogger { url := "http://rpc" } none (fun _ _ => .ok ())
        redirectingServer).cancelled = true := by
  have hspec := fetch_requests Ethereum.sampleLogger { url := "http://rpc" } none
    (fun _ _ => .ok ()) redirectingServer (by decide) (by decide)
  exact ⟨by decide, (hspec.2.2.2.2.2.2 () rfl).1⟩

end SubqlEthereum.Ethers
