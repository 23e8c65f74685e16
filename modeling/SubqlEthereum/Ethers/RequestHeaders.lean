import Mathlib.Data.List.Find
import SubqlEthereum.Ethers.FetchTrace
import SubqlEthereum.Library.PlainObject

/-!
# The headers of a request

A header goes through several objects on its way to the endpoint.  The constructor of
`EthereumApi` collects the configured ones and the parameters of the endpoint's url, `fetchJson`
adds the type of the content, `_fetchData` brings them together by their lower-case names, adds
the credentials and what it knows of the body, and `getUrl` asks for compression.  Each object is
keyed by the spelling that was used, except for the one of `_fetchData`.

`json_request_headers` says which value each header has in the end, and `credentials_need_https`
where a fetch with credentials may go.  The content type that an error describes the body by is one
of these headers (`contentType_flatHeaders`).
-/

namespace SubqlEthereum.Ethers.RequestHeaders

open SubqlEthereum.External SubqlEthereum.JsonText SubqlEthereum.Ethers
open SubqlEthereum.PlainObject

/-! ### The code -/

/-- The own properties of an object of headers, in order. -/
abbrev Headers := List (String × String)

/-- The headers of the connection, made by the constructor of `EthereumApi`. -/
def connectionHeaders (packageVersion : String) (config : Option Headers)
    (searchParams : Headers) : Headers :=
  searchParams.foldl (fun headers param => assign headers param.1 param.2)
    (spread [("User-Agent", "Subquery-Node " ++ packageVersion)] (config.getD []))

/-- What a connection says about its requests, besides its url and its headers. -/
structure RequestInfo extends ConnectionInfo where
  allowGzip : Bool := false
  user : Option String := none
  password : Option String := none
  allowInsecureAuthentication : Bool := false

/-- A header under its lower-case name. -/
structure Header where
  key : String
  value : String
deriving DecidableEq, Repr

section Fetch

variable (p : Platform) (logger : Logger) (base64Encode : String → String)

/-- The connection that `fetchJson` makes of the given one. -/
def jsonHeaders (headers : Headers) : Headers :=
  let hasContentType := headers.any fun header => p.toLowerCase header.1 = "content-type"
  if hasContentType then headers else assign headers "content-type" "application/json"

def namedHeaders (headers : Headers) : List (String × Header) :=
  headers.foldl (fun named header => assign named (p.toLowerCase header.1) ⟨header.1, header.2⟩) []

/-- The credentials, which replace an `authorization` header. -/
def authorized (connection : RequestInfo) (named : List (String × Header)) :
    Except JsError (List (String × Header)) :=
  match connection.user, connection.password with
  | some user, some password =>
    if startsWith connection.url "https:" = false ∧
        connection.allowInsecureAuthentication = false then
      .error (logger.makeError "basic authentication requires a secure https url"
        INVALID_ARGUMENT [("argument", .str "url"), ("url", .str connection.url),
          ("user", .str user), ("password", .str "[REDACTED]")])
    else
      .ok (assign named "authorization"
        ⟨"Authorization", "Basic " ++ base64Encode (user ++ ":" ++ password)⟩)
  | _, _ => .ok named

/-- A header that is added unless there is one. -/
def defaulted (named : List (String × Header)) (name : String) (header : Header) :
    List (String × Header) :=
  if (named.lookup name).isSome then named else assign named name header

def describeBody (body : Option Bytes) (named : List (String × Header)) :
    List (String × Header) :=
  match body with
  | none => named
  | some bytes =>
    defaulted (defaulted named "content-type" ⟨"Content-Type", "application/octet-stream"⟩)
      "content-length" ⟨"Content-Length", toString bytes.length⟩

def flatHeaders (named : List (String × Header)) : Headers :=
  named.foldl (fun flat entry => assign flat entry.2.key entry.2.value) []

/-- The headers that `_fetchData` hands to `getUrl`. -/
def requestHeaders (connection : RequestInfo) (body : Option Bytes) : Except JsError Headers := do
  let named ← authorized logger base64Encode connection (namedHeaders p connection.headers)
  return flatHeaders (describeBody body named)

/-- The headers that `getUrl` hands to `http.request`. -/
def getUrlHeaders (connection : RequestInfo) (headers : Headers) : Headers :=
  if connection.allowGzip then spread headers [("accept-encoding", "gzip")] else headers

/-- `http.request` sets one header after another, and one set again is replaced, whatever the case
of its name. -/
def sent (headers : Headers) : Headers :=
  headers.foldl (fun sent header => put sent (p.toLowerCase header.1) header.2) []

end Fetch

/-! ### Names and spellings -/

section Names

variable (p : Platform)

/-- The last header of a name, whatever its spelling. -/
def lastSpelled (headers : Headers) (name : String) : Option (String × String) :=
  headers.reverse.find? fun header => p.toLowerCase header.1 = name

theorem lastSpelled_cons (header : String × String) (headers : Headers) (name : String) :
    lastSpelled p (header :: headers) name =
      (lastSpelled p headers name).or
        (if p.toLowerCase header.1 = name then some header else none) := by
  rw [lastSpelled, List.reverse_cons, List.find?_append, ← lastSpelled]
  by_cases h : p.toLowerCase header.1 = name
  · simp [h]
  · simp [h]

theorem lastSpelled_eq_none (headers : Headers) (name : String)
    (h : name ∉ headers.map fun header => p.toLowerCase header.1) :
    lastSpelled p headers name = none := by
  rw [lastSpelled, List.find?_eq_none]
  intro header hheader hname
  exact h (List.mem_map.mpr ⟨header, List.mem_reverse.mp hheader, of_decide_eq_true hname⟩)

/-- Where no two headers have one name, a header that is set is the last of its name. -/
theorem lastSpelled_put (headers : Headers) (key value name : String)
    (hnodup : (headers.map fun header => p.toLowerCase header.1).Nodup) :
    lastSpelled p (put headers key value) name =
      if p.toLowerCase key = name then some (key, value) else lastSpelled p headers name := by
  induction headers with
  | nil => exact lastSpelled_cons p (key, value) [] name
  | cons header rest ih =>
    obtain ⟨other, old⟩ := header
    obtain ⟨hfresh, hrest⟩ := List.nodup_cons.mp hnodup
    rw [put]
    by_cases hkey : other = key
    · rw [if_pos hkey, lastSpelled_cons, lastSpelled_cons]
      by_cases hname : p.toLowerCase key = name
      · rw [lastSpelled_eq_none p rest name (by rw [← hname, ← hkey]; exact hfresh)]
        simp [hname]
      · simp [hkey, hname]
    · rw [if_neg hkey, lastSpelled_cons, lastSpelled_cons, ih hrest]
      by_cases hname : p.toLowerCase key = name
      · simp [hname]
      · simp [hname]

theorem sent_lookup (headers : Headers) (name : String) :
    (sent p headers).lookup name = (lastSpelled p headers name).map Prod.snd := by
  rw [sent, lookup_foldl_put, lastSpelled]
  simp

theorem sent_nodup (headers : Headers) : ((sent p headers).map Prod.fst).Nodup :=
  nodup_foldl_put _ _ headers [] List.nodup_nil

/-- A map of headers by their lower-case names. -/
structure Named (named : List (String × Header)) : Prop where
  nodup : (named.map Prod.fst).Nodup
  spelled : ∀ entry ∈ named, p.toLowerCase entry.2.key = entry.1 ∧ entry.1 ≠ "__proto__"

theorem Named.assign {p : Platform} {named : List (String × Header)} (h : Named p named)
    (name : String) (header : Header) (hname : p.toLowerCase header.key = name) :
    Named p (assign named name header) := by
  rw [PlainObject.assign]
  by_cases hproto : name = "__proto__"
  · rw [if_pos hproto]
    exact h
  · rw [if_neg hproto]
    refine ⟨nodup_put named name header h.nodup, fun entry hentry => ?_⟩
    rcases mem_put named name header entry hentry with rfl | hold
    · exact ⟨hname, hproto⟩
    · exact h.spelled entry hold

theorem namedHeaders_named (headers : Headers) : Named p (namedHeaders p headers) := by
  have hall : ∀ (l : Headers) (named : List (String × Header)), Named p named →
      Named p (l.foldl (fun named header =>
        PlainObject.assign named (p.toLowerCase header.1) ⟨header.1, header.2⟩) named) := by
    intro l
    induction l with
    | nil => exact fun named h => h
    | cons header rest ih => exact fun named h => ih _ (h.assign _ _ rfl)
  exact hall headers [] ⟨List.nodup_nil, fun entry h => absurd h List.not_mem_nil⟩

/-- The map has, under each name, the last header of that name. -/
theorem namedHeaders_lookup (headers : Headers) (name : String) (hname : name ≠ "__proto__") :
    (namedHeaders p headers).lookup name =
      (lastSpelled p headers name).map fun header => ⟨header.1, header.2⟩ := by
  rw [namedHeaders, lookup_foldl_assign _ _ name hname, lastSpelled]
  simp

theorem toLowerCase_lower (text lower : String) (hascii : text.toList.all (·.toNat < 128) = true)
    (hlower : asciiLower text = lower) : p.toLowerCase text = lower := by
  rw [p.toLowerCase_ascii text fun c hc => of_decide_eq_true (List.all_eq_true.mp hascii c hc),
    hlower]

/-- **Flattening a map keeps its headers**, each with the spelling it was given. -/
theorem flatHeaders_eq (named : List (String × Header)) (h : Named p named) :
    flatHeaders named = named.map fun entry => (entry.2.key, entry.2.value) := by
  have hproto : p.toLowerCase "__proto__" = "__proto__" :=
    toLowerCase_lower p _ _ (by decide) (by decide)
  have hall : ∀ (l : List (String × Header)) (flat : Headers), Named p l →
      (∀ entry ∈ l, entry.2.key ∉ flat.map Prod.fst) →
      l.foldl (fun flat entry => PlainObject.assign flat entry.2.key entry.2.value) flat =
        flat ++ l.map fun entry => (entry.2.key, entry.2.value) := by
    intro l
    induction l with
    | nil => exact fun flat _ _ => (List.append_nil flat).symm
    | cons entry rest ih =>
      intro flat hl hfresh
      obtain ⟨hname, hrest⟩ := List.nodup_cons.mp hl.nodup
      have hkey : entry.2.key ≠ "__proto__" := by
        intro heq
        have hspelled := hl.spelled entry List.mem_cons_self
        rw [heq, hproto] at hspelled
        exact hspelled.2 hspelled.1.symm
      have hset : PlainObject.assign flat entry.2.key entry.2.value =
          flat ++ [(entry.2.key, entry.2.value)] := by
        rw [PlainObject.assign, if_neg hkey]
        exact put_fresh flat _ _ (hfresh entry List.mem_cons_self)
      rw [List.foldl_cons, hset, ih _ ⟨hrest, fun e he => hl.spelled e (List.mem_cons_of_mem _ he)⟩]
      · rw [List.append_assoc]
        rfl
      · intro other hother hin
        rw [List.map_append, List.mem_append] at hin
        rcases hin with hin | hin
        · exact hfresh other (List.mem_cons_of_mem _ hother) hin
        · -- two headers of one spelling have one name
          have hsame : other.2.key = entry.2.key := List.mem_singleton.mp hin
          have hother' := (hl.spelled other (List.mem_cons_of_mem _ hother)).1
          rw [hsame, (hl.spelled entry List.mem_cons_self).1] at hother'
          exact hname (by rw [hother']; exact List.mem_map_of_mem hother)
  exact hall named [] h fun entry _ => List.not_mem_nil

theorem flatHeaders_names (named : List (String × Header)) (h : Named p named) :
    (flatHeaders named).map (fun header => p.toLowerCase header.1) = named.map Prod.fst := by
  rw [flatHeaders_eq p named h, List.map_map]
  exact List.map_congr_left fun entry hentry => (h.spelled entry hentry).1

theorem flatHeaders_lastSpelled (named : List (String × Header)) (h : Named p named)
    (name : String) :
    lastSpelled p (flatHeaders named) name =
      (named.lookup name).map fun header => (header.key, header.value) := by
  rw [flatHeaders_eq p named h]
  induction named with
  | nil => rfl
  | cons entry rest ih =>
    obtain ⟨hfresh, hrest⟩ := List.nodup_cons.mp h.nodup
    have hspelled := (h.spelled entry List.mem_cons_self).1
    rw [List.map_cons, lastSpelled_cons, List.lookup_cons,
      ih ⟨hrest, fun e he => h.spelled e (List.mem_cons_of_mem _ he)⟩]
    by_cases hname : name = entry.1
    · have hnone : rest.lookup name = none := by
        rw [List.lookup_eq_none_iff]
        intro other hother
        have hne : other.1 ≠ entry.1 := fun heq =>
          hfresh (by rw [← heq]; exact List.mem_map_of_mem hother)
        simpa [hname] using hne.symm
      rw [hnone, hname]
      simp [hspelled]
    · have hne : (name == entry.1) = false := by simp [hname]
      have hne' : ¬ p.toLowerCase entry.2.key = name := by
        rw [hspelled]
        exact fun heq => hname heq.symm
      rw [hne, if_neg hne']
      simp

/-- **A flat header is found under its spelling**, which is the one its name has in the map. -/
theorem flatHeaders_lookup (named : List (String × Header)) (h : Named p named) (key : String) :
    (flatHeaders named).lookup key =
      ((named.lookup (p.toLowerCase key)).filter (·.key = key)).map Header.value := by
  rw [flatHeaders_eq p named h]
  induction named with
  | nil => rfl
  | cons entry rest ih =>
    obtain ⟨hfresh, hrest⟩ := List.nodup_cons.mp h.nodup
    have hspelled := (h.spelled entry List.mem_cons_self).1
    rw [List.map_cons, List.lookup_cons, List.lookup_cons,
      ih ⟨hrest, fun e he => h.spelled e (List.mem_cons_of_mem _ he)⟩]
    by_cases hkey : key = entry.2.key
    · simp [hkey, hspelled, Option.filter]
    · have hne : (key == entry.2.key) = false := by simp [hkey]
      have hkey' : ¬ entry.2.key = key := fun heq => hkey heq.symm
      by_cases hname : p.toLowerCase key = entry.1
      · have hnone : rest.lookup (p.toLowerCase key) = none := by
          rw [List.lookup_eq_none_iff]
          intro other hother
          have hother' : other.1 ≠ entry.1 := fun heq =>
            hfresh (by rw [← heq]; exact List.mem_map_of_mem hother)
          simpa [hname] using hother'.symm
        simp only [hne, hnone, beq_iff_eq.mpr hname]
        simp [Option.filter, hkey']
      · have hne' : (p.toLowerCase key == entry.1) = false := by simp [hname]
        simp only [hne, hne']

end Names

/-! ### A request -/

section Request

variable (p : Platform) (logger : Logger) (base64Encode : String → String)

/-- The connection of the node's providers. -/
def apiConnection (endpoint packageVersion : String) (config : Option Headers)
    (searchParams : Headers) : RequestInfo where
  url := endpoint
  headers := connectionHeaders packageVersion config searchParams
  allowGzip := true
  throttleLimit := some 5
  throttleSlotInterval := some 1

/-- The connection `fetchJson` goes on with. -/
def jsonConnection (connection : RequestInfo) : RequestInfo :=
  { connection with headers := jsonHeaders p connection.headers }

/-- What an endpoint is sent. -/
def sentHeaders (connection : RequestInfo) (body : Option Bytes) : Except JsError Headers := do
  let headers ← requestHeaders p logger base64Encode connection body
  return sent p (getUrlHeaders connection headers)

theorem lookup_defaulted (named : List (String × Header)) (name other : String) (header : Header)
    (hname : name ≠ "__proto__") :
    (defaulted named name header).lookup other =
      (named.lookup other).or (if other = name then some header else none) := by
  rw [defaulted]
  cases hlookup : named.lookup name with
  | some found =>
    rw [Option.isSome_some, if_pos rfl]
    by_cases h : other = name
    · rw [h, hlookup]
      rfl
    · rw [if_neg h, Option.or_none]
  | none =>
    rw [Option.isSome_none, if_neg Bool.false_ne_true, lookup_assign]
    by_cases h : other = name
    · rw [if_pos ⟨h, hname⟩, if_pos h, h, hlookup]
      rfl
    · rw [if_neg fun hboth => h hboth.1, if_neg h, Option.or_none]

theorem Named.defaulted {p : Platform} {named : List (String × Header)} (h : Named p named)
    (name : String) (header : Header) (hname : p.toLowerCase header.key = name) :
    Named p (defaulted named name header) := by
  rw [RequestHeaders.defaulted]
  split
  · exact h
  · exact h.assign name header hname

theorem toLowerCase_contentType : p.toLowerCase "Content-Type" = "content-type" :=
  toLowerCase_lower p _ _ (by decide) (by decide)

theorem toLowerCase_contentLength : p.toLowerCase "Content-Length" = "content-length" :=
  toLowerCase_lower p _ _ (by decide) (by decide)

theorem toLowerCase_authorization : p.toLowerCase "Authorization" = "authorization" :=
  toLowerCase_lower p _ _ (by decide) (by decide)

theorem describeBody_named {named : List (String × Header)} (h : Named p named)
    (body : Option Bytes) : Named p (describeBody body named) := by
  cases body with
  | none => exact h
  | some bytes =>
    exact (h.defaulted _ _ (toLowerCase_contentType p)).defaulted _ _
      (toLowerCase_contentLength p)

/-- `fetchJson` adds the type of the content, unless some header gives one. -/
theorem jsonHeaders_lastSpelled (headers : Headers) (name : String) :
    lastSpelled p (jsonHeaders p headers) name =
      (lastSpelled p headers name).or
        (if name = "content-type" then some ("content-type", "application/json") else none) := by
  have hlower : p.toLowerCase "content-type" = "content-type" :=
    toLowerCase_lower p _ _ (by decide) (by decide)
  rw [jsonHeaders]
  by_cases hany : (headers.any fun header => p.toLowerCase header.1 = "content-type") = true
  · rw [if_pos hany]
    by_cases hname : name = "content-type"
    · obtain ⟨header, hheader, hspelled⟩ := List.any_eq_true.mp hany
      have hsome : (lastSpelled p headers name).isSome = true := by
        rw [lastSpelled, List.find?_isSome]
        exact ⟨header, List.mem_reverse.mpr hheader, by rw [hname]; exact hspelled⟩
      rw [Option.or_of_isSome hsome]
    · rw [if_neg hname, Option.or_none]
  · rw [if_neg hany]
    have hfresh : "content-type" ∉ headers.map Prod.fst := by
      intro hin
      obtain ⟨header, hheader, hkey⟩ := List.mem_map.mp hin
      exact hany (List.any_eq_true.mpr ⟨header, hheader, by rw [hkey, hlower]; rfl⟩)
    rw [assign, if_neg (by decide), put_fresh headers _ _ hfresh, lastSpelled, lastSpelled,
      List.reverse_append, List.reverse_singleton, List.singleton_append, List.find?_cons, hlower]
    by_cases hname : name = "content-type"
    · have hnone : headers.reverse.find? (fun header => p.toLowerCase header.1 = name) = none := by
        rw [List.find?_eq_none]
        intro header hheader hspelled
        apply hany
        rw [hname] at hspelled
        exact List.any_eq_true.mpr ⟨header, List.mem_reverse.mp hheader, hspelled⟩
      rw [hnone, hname]
      rfl
    · have hne : ¬ "content-type" = name := fun heq => hname heq.symm
      simp [hname, hne]

/-- Asking for compression replaces what was asked for before. -/
theorem getUrlHeaders_lastSpelled (connection : RequestInfo) (headers : Headers) (name : String)
    (hnodup : (headers.map fun header => p.toLowerCase header.1).Nodup) :
    lastSpelled p (getUrlHeaders connection headers) name =
      if connection.allowGzip = true ∧ name = "accept-encoding" then
        some ("accept-encoding", "gzip")
      else lastSpelled p headers name := by
  have hlower : p.toLowerCase "accept-encoding" = "accept-encoding" :=
    toLowerCase_lower p _ _ (by decide) (by decide)
  rw [getUrlHeaders]
  cases connection.allowGzip with
  | false => simp
  | true =>
    rw [if_pos rfl]
    show lastSpelled p (put headers "accept-encoding" "gzip") name = _
    rw [lastSpelled_put p headers _ _ name hnodup, hlower]
    by_cases hname : name = "accept-encoding"
    · simp [hname]
    · have hne : ¬ "accept-encoding" = name := fun heq => hname heq.symm
      simp [hname, hne]

/-- The type of the body in an error is that of the headers of the request. -/
theorem contentType_flatHeaders (connection : RequestInfo) (body : Option Bytes)
    (hascii : ∀ header ∈ connection.headers, ∀ c ∈ header.1.toList, c.toNat < 128) :
    (flatHeaders (describeBody body (namedHeaders p connection.headers))).lookup "content-type" =
      connection.contentType := by
  have hnamed := describeBody_named p (namedHeaders_named p connection.headers) body
  have hlast : lastSpelled p connection.headers "content-type" =
      connection.headers.reverse.find? fun header => asciiLower header.1 = "content-type" := by
    rw [lastSpelled]
    apply List.find?_congr
    intro header hheader
    rw [p.toLowerCase_ascii _ (hascii header (List.mem_reverse.mp hheader))]
  have hlower : p.toLowerCase "content-type" = "content-type" :=
    toLowerCase_lower p _ _ (by decide) (by decide)
  have hlookup : (describeBody body (namedHeaders p connection.headers)).lookup "content-type" =
      ((lastSpelled p connection.headers "content-type").map fun header =>
        (⟨header.1, header.2⟩ : Header)).or
        (if body.isSome then some ⟨"Content-Type", "application/octet-stream"⟩ else none) := by
    rw [← namedHeaders_lookup p _ _ (by decide)]
    cases body with
    | none => simp [describeBody]
    | some bytes =>
      rw [describeBody, lookup_defaulted _ _ _ _ (by decide), lookup_defaulted _ _ _ _ (by decide)]
      simp
  rw [flatHeaders_lookup p _ hnamed, hlower, hlookup, ConnectionInfo.contentType, ← hlast]
  cases lastSpelled p connection.headers "content-type" with
  | none => cases body <;> rfl
  | some header =>
    simp only [Option.map_some, Option.some_or, Option.filter_some]
    split_ifs <;> rfl

/-- What a request without credentials is sent with, by the headers of the connection. -/
theorem sentHeaders_plain (connection : RequestInfo) (bytes : Bytes)
    (huser : connection.user = none) :
    ∃ request, sentHeaders p logger base64Encode connection (some bytes) = .ok request ∧
      (request.map Prod.fst).Nodup ∧ ∀ name, request.lookup name =
        if connection.allowGzip = true ∧ name = "accept-encoding" then some "gzip"
        else if name = "__proto__" then none
        else (((lastSpelled p connection.headers name).map Prod.snd).or
          (if name = "content-type" then some "application/octet-stream" else none)).or
          (if name = "content-length" then some (toString bytes.length) else none) := by
  have hnamed := describeBody_named p (namedHeaders_named p connection.headers) (some bytes)
  have hauthorized : authorized logger base64Encode connection
      (namedHeaders p connection.headers) = .ok (namedHeaders p connection.headers) := by
    rw [authorized, huser]
  refine ⟨_, by rw [sentHeaders, requestHeaders, hauthorized]; rfl, sent_nodup p _, ?_⟩
  intro name
  rw [sent_lookup, getUrlHeaders_lastSpelled p connection _ name
    (by rw [flatHeaders_names p _ hnamed]; exact hnamed.nodup)]
  by_cases hgzip : connection.allowGzip = true ∧ name = "accept-encoding"
  · rw [if_pos hgzip, if_pos hgzip]
    rfl
  · rw [if_neg hgzip, if_neg hgzip, flatHeaders_lastSpelled p _ hnamed]
    by_cases hproto : name = "__proto__"
    · have hnone : (describeBody (some bytes) (namedHeaders p connection.headers)).lookup name =
          none := by
        rw [List.lookup_eq_none_iff]
        intro entry hentry
        simpa [hproto] using (hnamed.spelled entry hentry).2.symm
      rw [hnone, if_pos hproto]
      rfl
    · rw [if_neg hproto, describeBody, lookup_defaulted _ _ _ _ (by decide),
        lookup_defaulted _ _ _ _ (by decide), namedHeaders_lookup p _ name hproto]
      cases lastSpelled p connection.headers name with
      | some header => rfl
      | none =>
        by_cases htype : name = "content-type"
        · simp [htype]
        · by_cases hlength : name = "content-length"
          · simp [hlength]
          · simp [htype, hlength]

/-- **The headers of a JSON request of the node.**  Each is sent once.  Its value is the one given
last, among the spellings of its name, by the endpoint's configuration and the parameters of its
url; a parameter replaces what is configured under the same spelling, and that the node's own.
Without one the content is JSON of the length of the body.  The answer is always asked for
compressed. -/
theorem json_request_headers (endpoint packageVersion : String) (config : Option Headers)
    (searchParams : Headers) (bytes : Bytes) :
    let headers := connectionHeaders packageVersion config searchParams
    (∃ request, sentHeaders p logger base64Encode
        (jsonConnection p (apiConnection endpoint packageVersion config searchParams))
        (some bytes) = .ok request ∧
      (request.map Prod.fst).Nodup ∧ ∀ name, request.lookup name =
        if name = "accept-encoding" then some "gzip"
        else if name = "__proto__" then none
        else (((lastSpelled p headers name).map Prod.snd).or
          (if name = "content-type" then some "application/json" else none)).or
          (if name = "content-length" then some (toString bytes.length) else none)) ∧
      ∀ key, key ≠ "__proto__" → headers.lookup key =
        (((searchParams.reverse.find? fun param => param.1 = key).map Prod.snd).or
          (((config.getD []).reverse.find? fun header => header.1 = key).map Prod.snd)).or
          (if key = "User-Agent" then some ("Subquery-Node " ++ packageVersion) else none) := by
  intro headers
  constructor
  · obtain ⟨request, hsent, hnodup, hlookup⟩ := sentHeaders_plain p logger base64Encode
      (jsonConnection p (apiConnection endpoint packageVersion config searchParams)) bytes rfl
    refine ⟨request, hsent, hnodup, fun name => ?_⟩
    rw [hlookup name]
    show (if true = true ∧ name = "accept-encoding" then _ else if name = "__proto__" then none
      else (((lastSpelled p (jsonHeaders p headers) name).map Prod.snd).or _).or _) = _
    rw [jsonHeaders_lastSpelled]
    cases lastSpelled p headers name with
    | some header => simp
    | none =>
      by_cases htype : name = "content-type"
      · simp [htype]
      · simp [htype]
  · intro key hkey
    show (connectionHeaders packageVersion config searchParams).lookup key = _
    rw [connectionHeaders, lookup_foldl_assign _ _ key hkey, spread, lookup_foldl_put,
      List.lookup_cons]
    by_cases hagent : key = "User-Agent"
    · simp [hagent]
    · have hne : (key == "User-Agent") = false := by simp [hagent]
      simp [hagent, hne]

/-! ### Credentials -/

/-- **Credentials go to https only**, unless the connection allows otherwise.  A fetch with a user
and a password is refused for any other url; else they are sent with every request, in place of
other credentials, and no request goes to a url that is not for https. -/
theorem credentials_need_https {α : Type} (connection : RequestInfo) (user password : String)
    (huser : connection.user = some user) (hpassword : connection.password = some password)
    (hsecure : connection.allowInsecureAuthentication = false) (body : Option Bytes)
    (processFunc : Option Bytes → GetUrlResponse → Except JsError α) (server : Server) :
    (∃ e, sentHeaders p logger base64Encode connection body = .error e ∧
        startsWith connection.url "https:" = false) ∨
      ∃ request, sentHeaders p logger base64Encode connection body = .ok request ∧
        request.lookup "authorization" =
          some ("Basic " ++ base64Encode (user ++ ":" ++ password)) ∧
        ∀ sent ∈ (fetchRun logger connection.toConnectionInfo body processFunc server).requests,
          startsWith sent.url "https:" = true := by
  have hcode : authorized logger base64Encode connection (namedHeaders p connection.headers) =
      if startsWith connection.url "https:" = false ∧
          connection.allowInsecureAuthentication = false then
        .error (logger.makeError "basic authentication requires a secure https url"
          INVALID_ARGUMENT [("argument", .str "url"), ("url", .str connection.url),
            ("user", .str user), ("password", .str "[REDACTED]")])
      else
        .ok (assign (namedHeaders p connection.headers) "authorization"
          ⟨"Authorization", "Basic " ++ base64Encode (user ++ ":" ++ password)⟩) := by
    simp only [authorized, huser, hpassword]
  cases hurl : startsWith connection.url "https:" with
  | false =>
    left
    rw [hurl, if_pos ⟨rfl, hsecure⟩] at hcode
    exact ⟨_, by rw [sentHeaders, requestHeaders, hcode]; rfl, rfl⟩
  | true =>
    right
    rw [hurl, if_neg fun h => absurd h.1 (by decide)] at hcode
    have hnamed : Named p (describeBody body (assign (namedHeaders p connection.headers)
        "authorization" ⟨"Authorization", "Basic " ++ base64Encode (user ++ ":" ++ password)⟩)) :=
      describeBody_named p ((namedHeaders_named p connection.headers).assign _ _
        (toLowerCase_authorization p)) body
    refine ⟨_, by rw [sentHeaders, requestHeaders, hcode]; rfl, ?_, ?_⟩
    · rw [sent_lookup, getUrlHeaders_lastSpelled p connection _ _
        (by rw [flatHeaders_names p _ hnamed]; exact hnamed.nodup),
        if_neg fun h => absurd h.2 (by decide), flatHeaders_lastSpelled p _ hnamed]
      have hset : (assign (namedHeaders p connection.headers) "authorization"
          (⟨"Authorization", "Basic " ++ base64Encode (user ++ ":" ++ password)⟩ : Header)).lookup
          "authorization" =
            some ⟨"Authorization", "Basic " ++ base64Encode (user ++ ":" ++ password)⟩ := by
        rw [lookup_assign, if_pos ⟨rfl, by decide⟩]
      cases body with
      | none =>
        rw [describeBody, hset]
        rfl
      | some bytes =>
        rw [describeBody, lookup_defaulted _ _ _ _ (by decide),
          lookup_defaulted _ _ _ _ (by decide), hset]
        rfl
    · intro request hrequest
      rcases fetchRun_urls logger connection.toConnectionInfo body processFunc server request
        hrequest with hsame | ⟨-, hhttps⟩
      · rw [hsame]
        exact hurl
      · exact hhttps

end Request

/-- A connection with credentials, to a server that redirects. -/
def credentialsConnection : RequestInfo where
  url := "https://rpc"
  user := some "node"
  password := some "secret"

/-- Its credentials follow the redirection. -/
theorem credentials_need_https_redirected :
    (∃ e, sentHeaders erc20Platform Ethereum.sampleLogger id credentialsConnection none =
        .error e ∧ startsWith credentialsConnection.url "https:" = false) ∨
      ∃ request, sentHeaders erc20Platform Ethereum.sampleLogger id credentialsConnection none =
          .ok request ∧
        request.lookup "authorization" = some "Basic node:secret" ∧
        ∀ sent ∈ (fetchRun Ethereum.sampleLogger credentialsConnection.toConnectionInfo none
          (fun _ _ => .ok ()) redirectingServer).requests, startsWith sent.url "https:" = true :=
  credentials_need_https erc20Platform Ethereum.sampleLogger id credentialsConnection "node"
    "secret" rfl rfl rfl none (fun _ _ => .ok ()) redirectingServer

end SubqlEthereum.Ethers.RequestHeaders
