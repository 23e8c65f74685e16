import SubqlEthereum.External

/-!
# Fetching over HTTP

`_fetchData` of `web/index.ts`: the request is repeated, up to the throttle limit, on a redirect
and on status 429, and every way it can fail has an error of its own.

A server answers the attempts in turn.  Pauses between attempts take no part in the model; that
the running timeout comes first is an outcome of its own, given by the url that had been reached.
The url is taken to be no `data:` url, for which nothing is requested, and the credentials to be
accepted: the headers, basic authentication among them, are those of `RequestHeaders`.
-/

namespace SubqlEthereum.Ethers

open SubqlEthereum.External SubqlEthereum.JsonText

/-! ### What the module takes from ethers -/

abbrev Bytes := List UInt8

/-- The logger and the byte helpers of ethers. -/
structure Logger where
  /-- `makeError(reason, code, params)`, which `throwError` throws. -/
  makeError : String → String → List (String × Json) → JsError
  message_startsWith : ∀ reason code params,
    startsWith (makeError reason code params).message reason
  /-- Besides its reason and its code, an error carries the parameters as fields. -/
  get_makeError : ∀ reason code params field, field ≠ "reason" → field ≠ "code" →
    (makeError reason code params).get field = params.lookup field
  /-- `toUtf8String`; throws on bytes that are no text. -/
  toUtf8String : Bytes → Option String
  hexlify : Bytes → String

def SERVER_ERROR : String := "SERVER_ERROR"

def INVALID_ARGUMENT : String := "INVALID_ARGUMENT"

def TIMEOUT : String := "TIMEOUT"

/-! ### Connections and responses -/

/-- The parts of a `ConnectionInfo` that `_fetchData` reads. -/
structure ConnectionInfo where
  url : String
  headers : List (String × String) := []
  throttleLimit : Option ℤ := none
  throttleSlotInterval : Option ℤ := none
  throttleCallback : Option (ℕ → String → Except JsError Bool) := none
  errorPassThrough : Bool := false
  timeout : Option ℤ := none

structure GetUrlResponse where
  statusCode : ℤ
  headers : List (String × String) := []
  body : Option Bytes := none
deriving Repr

/-- The answer to an attempt at a url. -/
abbrev Server := ℕ → String → Except JsError GetUrlResponse

/-- How many times to try. -/
def ConnectionInfo.attemptLimit (connection : ConnectionInfo) : ℤ :=
  connection.throttleLimit.getD 12

def ConnectionInfo.slotInterval (connection : ConnectionInfo) : ℤ :=
  connection.throttleSlotInterval.getD 100

/-- The timeout in milliseconds, two minutes by default. -/
def ConnectionInfo.runningTimeout (connection : ConnectionInfo) : ℤ :=
  match connection.timeout with
  | some timeout => if 0 < timeout then timeout else 2 * 60 * 1000
  | none => 2 * 60 * 1000

def ConnectionInfo.allow304 (connection : ConnectionInfo) : Bool :=
  connection.headers.any fun header =>
    ["if-none-match", "if-modified-since"].contains (asciiLower header.1)

/-- Removes the blanks around a text. -/
def trim (text : String) : String :=
  String.ofList ((text.toList.dropWhile Char.isWhitespace).reverse.dropWhile
    Char.isWhitespace).reverse

/-- The type of a body that is text. -/
def isTextType (type : String) : Bool :=
  String.ofList (type.toList.takeWhile (· ≠ '/')) = "text" ||
    trim (String.ofList (type.toList.takeWhile (· ≠ ';'))) = "application/json"

/-- A body as it is shown in an error. -/
def bodyify (logger : Logger) (value : Option Bytes) (type : Option String) : Json :=
  match value with
  | none => .null
  | some value =>
    if type.any isTextType then .str ((logger.toUtf8String value).getD (logger.hexlify value))
    else .str (logger.hexlify value)

/-- The request, with the parameters that every error shows of it. -/
structure Options where
  method : String
  requestBody : Json

/-- `flatHeaders['content-type']`: of the headers of that name the last is kept, under the spelling
it has, and the one added for a body is spelled `Content-Type`. -/
def ConnectionInfo.contentType (connection : ConnectionInfo) : Option String :=
  ((connection.headers.reverse.find? fun header => asciiLower header.1 = "content-type").filter
    fun header => header.1 = "content-type").map Prod.snd

def ConnectionInfo.options (connection : ConnectionInfo) (logger : Logger) (body : Option Bytes) :
    Options where
  method := if body.isSome then "POST" else "GET"
  requestBody := bodyify logger body connection.contentType

/-! ### The errors -/

/-- An error in the parameters of another one. -/
def errorJson (e : JsError) : Json := .obj (("message", .str e.message) :: e.fields)

def headersJson (headers : List (String × String)) : Json :=
  .obj (headers.map fun header => (header.1, .str header.2))

def invalidArgument (logger : Logger) (message argument : String) (value : ℤ) : JsError :=
  logger.makeError message INVALID_ARGUMENT [("argument", .str argument), ("value", .num value)]

def missingResponse (logger : Logger) (options : Options) (url : String) (serverError : JsError) :
    JsError :=
  logger.makeError "missing response" SERVER_ERROR
    [("requestBody", options.requestBody), ("requestMethod", .str options.method),
      ("serverError", errorJson serverError), ("url", .str url)]

def badResponse (logger : Logger) (options : Options) (url : String) (response : GetUrlResponse)
    (body : Option Bytes) : JsError :=
  logger.makeError "bad response" SERVER_ERROR
    [("status", .num response.statusCode), ("headers", headersJson response.headers),
      ("body", bodyify logger body (response.headers.lookup "content-type")),
      ("requestBody", options.requestBody), ("requestMethod", .str options.method),
      ("url", .str url)]

def processingError (logger : Logger) (options : Options) (url : String)
    (response : GetUrlResponse) (body : Option Bytes) (error : JsError) : JsError :=
  logger.makeError "processing response error" SERVER_ERROR
    [("body", bodyify logger body (response.headers.lookup "content-type")),
      ("error", errorJson error), ("requestBody", options.requestBody),
      ("requestMethod", .str options.method), ("url", .str url)]

def failedResponse (logger : Logger) (options : Options) (url : String) : JsError :=
  logger.makeError "failed response" SERVER_ERROR
    [("requestBody", options.requestBody), ("requestMethod", .str options.method),
      ("url", .str url)]

def timeoutError (logger : Logger) (options : Options) (url : String) (timeout : ℤ) : JsError :=
  logger.makeError "timeout" TIMEOUT
    [("requestBody", options.requestBody), ("requestMethod", .str options.method),
      ("timeout", .num timeout), ("url", .str url)]

/-! ### The loop -/

/-- What the `try` block of an attempt leads to: another attempt, or a response to look at. -/
inductive Attempt
  | again (url : String)
  | answered (response : GetUrlResponse)

/-- `tryAgain`, for which the callback is asked when there is one. -/
def ConnectionInfo.tryAgain (connection : ConnectionInfo) (attempt : ℕ) (url : String) :
    Except JsError Bool :=
  match connection.throttleCallback with
  | some throttleCallback => throttleCallback attempt url
  | none => .ok true

/-- The `try` block.  The error of the last throttled attempt also holds the response. -/
def tryAttempt (connection : ConnectionInfo) (options : Options) (server : Server)
    (attemptLimit attempt : ℕ) (url : String) : Except JsError Attempt := do
  let response ← server attempt url
  if response.statusCode = 301 ∨ response.statusCode = 302 then
    let location := (response.headers.lookup "location").getD ""
    if options.method = "GET" ∧ startsWith location "https:" then return .again location
    else return .answered response
  else if response.statusCode = 429 then
    if attempt + 1 = attemptLimit then throw { message := "rate limited" }
    else
      let tryAgain ← connection.tryAgain attempt url
      if tryAgain then return .again url
      else return .answered response
  else return .answered response

def JsError.throttleRetry (e : JsError) : Bool := (e.get "throttleRetry").any isTruthy

/-- `runningFetch`, with the number of attempts left. -/
def runningFetch {α : Type} (logger : Logger) (connection : ConnectionInfo) (options : Options)
    (server : Server) (processFunc : Option Bytes → GetUrlResponse → Except JsError α)
    (attemptLimit : ℕ) : ℕ → ℕ → String → Except JsError α
  | 0, _, url => .error (failedResponse logger options url)
  | left + 1, attempt, url =>
    match tryAttempt connection options server attemptLimit attempt url with
    | .error e =>
      -- a response that the error holds only decides whether the timeout is cancelled
      .error (missingResponse logger options url e)
    | .ok (.again url) =>
      runningFetch logger connection options server processFunc attemptLimit left (attempt + 1) url
    | .ok (.answered response) =>
      let notModified := connection.allow304 ∧ response.statusCode = 304
      let body := if notModified then none else response.body
      if ¬ notModified ∧ connection.errorPassThrough = false ∧
          (response.statusCode < 200 ∨ 300 ≤ response.statusCode) then
        .error (badResponse logger options url response body)
      else
        match processFunc body response with
        | .ok result => .ok result
        | .error e =>
          if JsError.throttleRetry e then
            match connection.tryAgain attempt url with
            | .error e => .error e
            | .ok true =>
              runningFetch logger connection options server processFunc attemptLimit left
                (attempt + 1) url
            | .ok false => .error (processingError logger options url response body e)
          else .error (processingError logger options url response body e)

/-- `_fetchData` with a function to process the response, for a url that is no `data:` url and
without credentials that are refused.  `timedOut` is the url the fetch had reached when the running
timeout came first. -/
def fetchData {α : Type} (logger : Logger) (connection : ConnectionInfo) (body : Option Bytes)
    (processFunc : Option Bytes → GetUrlResponse → Except JsError α) (server : Server)
    (timedOut : Option String) : Except JsError α :=
  if connection.attemptLimit ≤ 0 then
    .error (invalidArgument logger "invalid connection throttle limit" "connection.throttleLimit"
      connection.attemptLimit)
  else if connection.slotInterval ≤ 0 then
    .error (invalidArgument logger "invalid connection throttle slot interval"
      "connection.throttleSlotInterval" connection.slotInterval)
  else
    let options := connection.options logger body
    match timedOut with
    | some url => .error (timeoutError logger options url connection.runningTimeout)
    | none =>
      runningFetch logger connection options server processFunc connection.attemptLimit.toNat
        connection.attemptLimit.toNat 0 connection.url

/-! ### Persistent throttling -/

/-- A server that answers every attempt at a url with status 429, whatever the headers. -/
def Throttles (server : Server) (attemptLimit : ℕ) (url : String) : Prop :=
  ∀ attempt < attemptLimit, ∃ response, server attempt url = .ok response ∧
    response.statusCode = 429

/-- A throttled attempt is repeated, but for the last one, which fails. -/
theorem tryAttempt_throttled (connection : ConnectionInfo) (options : Options) (server : Server)
    (attemptLimit attempt : ℕ) (url : String) (hcallback : connection.throttleCallback = none)
    (hserver : Throttles server attemptLimit url) (hattempt : attempt < attemptLimit) :
    tryAttempt connection options server attemptLimit attempt url =
      if attempt + 1 = attemptLimit then .error { message := "rate limited" }
      else .ok (.again url) := by
  obtain ⟨response, hresponse, hstatus⟩ := hserver attempt hattempt
  have hredirect : ¬ (response.statusCode = 301 ∨ response.statusCode = 302) := by omega
  rw [tryAttempt, hresponse]
  show (if response.statusCode = 301 ∨ response.statusCode = 302 then _ else _) = _
  rw [if_neg hredirect, if_pos hstatus]
  by_cases hlast : attempt + 1 = attemptLimit
  · rw [if_pos hlast, if_pos hlast]
    rfl
  · rw [if_neg hlast, if_neg hlast, ConnectionInfo.tryAgain, hcallback]
    rfl

/-- **The last throttled attempt is reported as a missing response.** -/
theorem runningFetch_throttled {α : Type} (logger : Logger) (connection : ConnectionInfo)
    (options : Options) (server : Server)
    (processFunc : Option Bytes → GetUrlResponse → Except JsError α) (attemptLimit : ℕ)
    (url : String) (hcallback : connection.throttleCallback = none)
    (hserver : Throttles server attemptLimit url) :
    ∀ left attempt, attempt + (left + 1) = attemptLimit →
      runningFetch logger connection options server processFunc attemptLimit (left + 1) attempt
          url =
        .error (missingResponse logger options url { message := "rate limited" }) := by
  intro left
  induction left with
  | zero =>
    intro attempt hlimit
    have hattempt : attempt < attemptLimit := by omega
    rw [runningFetch, tryAttempt_throttled connection options server attemptLimit attempt url
      hcallback hserver hattempt, if_pos hlimit]
  | succ left ih =>
    intro attempt hlimit
    have hattempt : attempt < attemptLimit := by omega
    have hmore : ¬ attempt + 1 = attemptLimit := by omega
    rw [runningFetch, tryAttempt_throttled connection options server attemptLimit attempt url
      hcallback hserver hattempt, if_neg hmore]
    exact ih (attempt + 1) (by omega)

/-- The errors a throttled fetch ends with. -/
def throttledReasons : List String :=
  ["missing response", "timeout", "invalid connection throttle slot interval"]

/-- Whatever comes first, a throttled fetch fails with an error of ethers that has no status. -/
theorem fetchData_throttled {α : Type} (logger : Logger) (connection : ConnectionInfo)
    (body : Option Bytes) (processFunc : Option Bytes → GetUrlResponse → Except JsError α)
    (server : Server) (timedOut : Option String) (hlimit : 1 ≤ connection.attemptLimit)
    (hcallback : connection.throttleCallback = none)
    (hserver : Throttles server connection.attemptLimit.toNat connection.url) :
    ∃ reason code params, reason ∈ throttledReasons ∧ params.lookup "status" = none ∧
      fetchData logger connection body processFunc server timedOut =
        .error (logger.makeError reason code params) := by
  rw [fetchData, if_neg (by omega)]
  by_cases hslot : connection.slotInterval ≤ 0
  · rw [if_pos hslot]
    exact ⟨_, _, _, by simp [throttledReasons], rfl, rfl⟩
  · rw [if_neg hslot]
    cases timedOut with
    | some url => exact ⟨"timeout", TIMEOUT, _, by simp [throttledReasons], rfl, rfl⟩
    | none =>
      obtain ⟨left, hleft⟩ : ∃ left, connection.attemptLimit.toNat = left + 1 :=
        ⟨connection.attemptLimit.toNat - 1, by omega⟩
      rw [hleft] at hserver ⊢
      have hfetch := runningFetch_throttled logger connection (connection.options logger body)
        server processFunc (left + 1) connection.url hcallback hserver left 0 (by omega)
      exact ⟨"missing response", SERVER_ERROR, _, by simp [throttledReasons], rfl, hfetch⟩

end SubqlEthereum.Ethers
