import SubqlEthereum.Ethereum.FetchBlock
import SubqlEthereum.Ethers.Web

/-!
# How the errors of an endpoint are classified

`EthereumApiConnection.handleError` of `api.connection.ts` sorts errors by their messages.  A rate
limit is recognised by the message that `EthereumApi.handleError` writes for status 429, so the
status has to be on the error that the provider rejects with.  It is there when the loop of
`_fetchData` leaves a throttled response alone (`declined_retry_recognised`), and it is not when
the attempts run out (`throttling_never_recognised`).
-/

namespace SubqlEthereum.Ethereum

open SubqlEthereum.External SubqlEthereum.JsonText SubqlEthereum.Ethers

/-! ### The classification -/

inductive ApiConnectionError
  | timeoutError (e : JsError)
  | disconnectionError (e : JsError)
  | rateLimitError (e : JsError)
  | largeResponseError (e : JsError)
  | apiConnectionError (name message : String)

/-- `EthereumApiConnection.handleError`. -/
def connectionHandleError (e : JsError) : ApiConnectionError :=
  if startsWith e.message "No response received from RPC endpoint in" then .timeoutError e
  else if startsWith e.message "disconnected from " then .disconnectionError e
  else if startsWith e.message "Rate Limited at endpoint" then .rateLimitError e
  else if includes e.message "Exceeded max limit of" then .largeResponseError e
  else .apiConnectionError e.name e.message

def ApiConnectionError.IsRateLimit (e : ApiConnectionError) : Prop :=
  ∃ cause, e = .rateLimitError cause

/-! ### Prefixes of a message -/

/-- Two texts a message starts with agree as far as both go. -/
theorem startsWith_comparable (text a b : String) (ha : startsWith text a)
    (hb : startsWith text b) : startsWith a b ∨ startsWith b a := by
  rw [startsWith, List.isPrefixOf_iff_prefix] at ha hb ⊢
  rw [startsWith, List.isPrefixOf_iff_prefix]
  exact (List.prefix_or_prefix_of_prefix ha hb).symm

/-- An error is classified as a rate limit only by the start of its message. -/
theorem message_of_isRateLimit (e : JsError) (h : (connectionHandleError e).IsRateLimit) :
    startsWith e.message "Rate Limited at endpoint" := by
  obtain ⟨cause, hcause⟩ := h
  rw [connectionHandleError] at hcause
  by_contra hmessage
  rw [if_neg hmessage] at hcause
  split_ifs at hcause

/-- The message for status 429 is recognised. -/
theorem isRateLimit_of_status (api : EthereumApi) (e : JsError) (he : e.status = some 429) :
    (connectionHandleError (api.handleError e)).IsRateLimit := by
  have hmessage : (api.handleError e).message = "Rate Limited at endpoint: " ++ api.hostname := by
    rw [EthereumApi.handleError, if_pos he]
  have hstarts : startsWith (api.handleError e).message "Rate Limited at endpoint" := by
    rw [hmessage, startsWith, List.isPrefixOf_iff_prefix, String.toList_append]
    apply List.IsPrefix.trans _ (List.prefix_append _ _)
    decide
  have hother : ∀ start, startsWith start "Rate Limited at endpoint" = false →
      startsWith "Rate Limited at endpoint" start = false →
      startsWith (api.handleError e).message start = false := by
    intro start h h'
    rw [Bool.eq_false_iff]
    intro hstart
    rcases startsWith_comparable _ _ _ hstart hstarts with hs | hs
    · exact absurd hs (by simp [h])
    · exact absurd hs (by simp [h'])
  refine ⟨api.handleError e, ?_⟩
  rw [connectionHandleError, if_neg (by rw [hother _ (by decide) (by decide)]; simp),
    if_neg (by rw [hother _ (by decide) (by decide)]; simp), if_pos hstarts]

/-! ### Throttled requests -/

/-- A block request that fails is mapped by `EthereumApi.handleError`. -/
theorem fetchBlock_request_error (p : Platform) (api : EthereumApi) (endpoint : Endpoint)
    (num : ℤ) (e : JsError) (he : endpoint.blockByNumber num = .error e) :
    api.fetchBlock p endpoint num = .error (api.handleError e) := by
  rw [EthereumApi.fetchBlock, EthereumApi.getBlockPromise, he]
  rfl

/-- When the callback declines the first retry, the throttled response is reported with its
status and recognised. -/
theorem declined_retry_recognised {α : Type} (logger : Logger) (connection : ConnectionInfo)
    (body : Option Bytes) (processFunc : Option Bytes → GetUrlResponse → Except JsError α)
    (server : Server) (response : GetUrlResponse) (callback : ℕ → String → Except JsError Bool)
    (hlimit : 2 ≤ connection.attemptLimit) (hslot : 1 ≤ connection.slotInterval)
    (hpass : connection.errorPassThrough = false)
    (hcallback : connection.throttleCallback = some callback)
    (hdeclined : callback 0 connection.url = .ok false)
    (hserver : server 0 connection.url = .ok response) (hstatus : response.statusCode = 429)
    (api : EthereumApi) :
    ∃ e, fetchData logger connection body processFunc server none = .error e ∧
      (connectionHandleError (api.handleError e)).IsRateLimit := by
  obtain ⟨left, hleft⟩ : ∃ left, connection.attemptLimit.toNat = left + 1 :=
    ⟨connection.attemptLimit.toNat - 1, by omega⟩
  have hattempt : tryAttempt connection (connection.options logger body) server (left + 1) 0
      connection.url = .ok (.answered response) := by
    have hredirect : ¬ (response.statusCode = 301 ∨ response.statusCode = 302) := by omega
    rw [tryAttempt, hserver]
    show (if response.statusCode = 301 ∨ response.statusCode = 302 then _ else _) = _
    rw [if_neg hredirect, if_pos hstatus, if_neg (by omega), ConnectionInfo.tryAgain, hcallback]
    simp only [hdeclined]
    rfl
  refine ⟨badResponse logger (connection.options logger body) connection.url response
    response.body, ?_, ?_⟩
  · rw [fetchData, if_neg (by omega), if_neg (by omega)]
    simp only [hleft, runningFetch, hattempt]
    have hmodified : ¬ (connection.allow304 ∧ response.statusCode = 304) := by omega
    have hbad : response.statusCode < 200 ∨ 300 ≤ response.statusCode := by omega
    simp only [if_neg hmodified]
    rw [if_pos ⟨hmodified, hpass, hbad⟩]
  · apply isRateLimit_of_status
    have hget : (badResponse logger (connection.options logger body) connection.url response
        response.body).get "status" = some (.num response.statusCode) := by
      rw [badResponse, logger.get_makeError _ _ _ _ (by decide) (by decide)]
      rfl
    rw [JsError.status, hget, hstatus]

/-- **Persistent rate limiting is never recognised.**  When every attempt is answered with status
429, the fetch fails, and the error that `fetchBlock` makes of it is not classified as a rate
limit. -/
theorem throttling_never_recognised {α : Type} (logger : Logger) (connection : ConnectionInfo)
    (body : Option Bytes) (processFunc : Option Bytes → GetUrlResponse → Except JsError α)
    (server : Server) (timedOut : Option String) (hlimit : 1 ≤ connection.attemptLimit)
    (hcallback : connection.throttleCallback = none)
    (hserver : Throttles server connection.attemptLimit.toNat connection.url) :
    ∃ e, fetchData logger connection body processFunc server timedOut = .error e ∧
      ∀ api : EthereumApi, ¬ (connectionHandleError (api.handleError e)).IsRateLimit ∧
        ∀ (p : Platform) (endpoint : Endpoint) (num : ℤ), endpoint.blockByNumber num = .error e →
          api.fetchBlock p endpoint num = .error (api.handleError e) := by
  obtain ⟨reason, code, params, hreason, hparams, hfetch⟩ :=
    fetchData_throttled logger connection body processFunc server timedOut hlimit hcallback hserver
  refine ⟨logger.makeError reason code params, hfetch, ?_⟩
  intro api
  refine ⟨?_, fun p endpoint num he => fetchBlock_request_error p api endpoint num _ he⟩
  intro hlimited
  -- without a status the error is left as it is
  have hstatus : (logger.makeError reason code params).status ≠ some 429 := by
    rw [JsError.status, logger.get_makeError _ _ _ _ (by decide) (by decide), hparams]
    simp
  rw [(handleError_eq_self api _).mpr hstatus] at hlimited
  have hmessage := message_of_isRateLimit _ hlimited
  -- and the message starts with the reason of the fetch
  have hstarts := logger.message_startsWith reason code params
  have hnone : ∀ reason ∈ throttledReasons, startsWith reason "Rate Limited at endpoint" = false ∧
      startsWith "Rate Limited at endpoint" reason = false := by
    decide
  obtain ⟨h, h'⟩ := hnone reason hreason
  rcases startsWith_comparable _ _ _ hstarts hmessage with hs | hs
  · exact absurd hs (by simp [h])
  · exact absurd hs (by simp [h'])

/-- A logger that shows the code of an error and not its parameters. -/
def sampleLogger : Logger where
  makeError reason code params :=
    { message := reason ++ " (code=" ++ code ++ ")"
      fields := ("reason", .str reason) :: ("code", .str code) :: params }
  message_startsWith := by
    intro reason code params
    rw [startsWith, List.isPrefixOf_iff_prefix, String.append_assoc, String.append_assoc,
      String.toList_append]
    exact List.prefix_append _ _
  get_makeError := by
    intro reason code params field hreason hcode
    simp [JsError.get, List.lookup_cons, beq_false_of_ne hreason, beq_false_of_ne hcode]
  toUtf8String _ := none
  hexlify _ := "0x"

/-- A server that is throttling, with the header to wait for a second. -/
def throttlingServer : Server := fun _ _ =>
  .ok { statusCode := 429, headers := [("retry-after", "1")] }

theorem throttling_never_recognised_sample :
    ∃ e, fetchData sampleLogger { url := "https://rpc", throttleLimit := some 5 } (some [])
        (fun _ _ => .ok ()) throttlingServer none = .error e ∧
      ∀ api : EthereumApi, ¬ (connectionHandleError (api.handleError e)).IsRateLimit := by
  obtain ⟨e, hfetch, hapi⟩ := throttling_never_recognised sampleLogger
    { url := "https://rpc", throttleLimit := some 5 } (some []) (fun _ _ => .ok ())
    throttlingServer none (by decide) rfl fun _ _ => ⟨_, rfl, rfl⟩
  exact ⟨e, hfetch, fun api => (hapi api).1⟩

/-- One attempt, answered with status 429: the error is one of no particular kind. -/
theorem single_attempt_not_recognised :
    ∃ e, fetchData sampleLogger { url := "https://rpc", throttleLimit := some 1 } (some [])
        (fun _ _ => Except.ok ()) throttlingServer none = .error e ∧
      connectionHandleError (EthereumApi.handleError ⟨none, "rpc"⟩ e) =
        .apiConnectionError "Error" "missing response (code=SERVER_ERROR)" ∧
      ¬ (connectionHandleError (EthereumApi.handleError ⟨none, "rpc"⟩ e)).IsRateLimit := by
  have hclass : connectionHandleError (EthereumApi.handleError ⟨none, "rpc"⟩
      (missingResponse sampleLogger ⟨"POST", .str "0x"⟩ "https://rpc"
        { message := "rate limited" })) =
      .apiConnectionError "Error" "missing response (code=SERVER_ERROR)" := rfl
  refine ⟨_, rfl, hclass, ?_⟩
  intro h
  obtain ⟨cause, hcause⟩ := h
  exact absurd (hclass.symm.trans hcause) (by simp)

end SubqlEthereum.Ethereum
