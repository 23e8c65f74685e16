import SubqlEthereum.External

/-!
# Data sources, handlers and filters

The project manifest as the node sees it after loading: data sources with their handlers, and
the filters of the three base handler kinds.  A filter is a JavaScript object, so its own keys
have an order and a key that is `undefined` is as good as absent; `JSON.stringify` prints the
keys in that order.  A transaction or block filter is therefore the list of its set fields, no
field twice, and the accessors look a field up in it.  A log filter has one possible field.

`null` and `undefined` are told apart where the code does: `Option (Option String)` is a field
that may be absent or `null`.  Inside `topics` they are both `none`, since the code treats them
alike there and JSON prints both as `null`.
-/

namespace SubqlEthereum.Project

open SubqlEthereum.JsonText

/-- The kinds of handler a runtime data source has. -/
inductive EthereumHandlerKind
  | block
  | call
  | event
deriving DecidableEq, Repr

/-- The text of a handler kind in the manifest. -/
def EthereumHandlerKind.value : EthereumHandlerKind → String
  | .block => "ethereum/BlockHandler"
  | .call => "ethereum/TransactionHandler"
  | .event => "ethereum/LogHandler"

/-! ### Filters -/

/-- A set field of a block filter. -/
inductive BlockFilterField
  | modulo (n : ℤ)
  | timestamp (cron : String)
deriving DecidableEq, Repr

def BlockFilterField.key : BlockFilterField → String
  | .modulo _ => "modulo"
  | .timestamp _ => "timestamp"

def BlockFilterField.entry : BlockFilterField → String × Json
  | .modulo n => ("modulo", .num n)
  | .timestamp cron => ("timestamp", .str cron)

structure EthereumBlockFilter where
  fields : List BlockFilterField
  nodup : (fields.map BlockFilterField.key).Nodup
deriving DecidableEq, Repr

/-- `filter.modulo`. -/
def EthereumBlockFilter.modulo (f : EthereumBlockFilter) : Option ℤ :=
  f.fields.findSome? fun
    | .modulo n => some n
    | _ => none

def EthereumBlockFilter.toJson (f : EthereumBlockFilter) : Json :=
  .obj (f.fields.map BlockFilterField.entry)

/-- A set field of a transaction filter; `to` and `function` may be `null`. -/
inductive TransactionFilterField
  | «from» (address : String)
  | to (address : Option String)
  | function (signature : Option String)
  | type (text : String)
deriving DecidableEq, Repr

def TransactionFilterField.key : TransactionFilterField → String
  | .from _ => "from"
  | .to _ => "to"
  | .function _ => "function"
  | .type _ => "type"

/-- A string, or `null`, as a JSON value. -/
def nullable : Option String → Json
  | some s => .str s
  | none => .null

def TransactionFilterField.entry : TransactionFilterField → String × Json
  | .from address => ("from", .str address)
  | .to address => ("to", nullable address)
  | .function signature => ("function", nullable signature)
  | .type text => ("type", .str text)

structure EthereumTransactionFilter where
  fields : List TransactionFilterField
  nodup : (fields.map TransactionFilterField.key).Nodup
deriving DecidableEq, Repr

namespace EthereumTransactionFilter

/-- `filter.from`. -/
def «from» (f : EthereumTransactionFilter) : Option String :=
  f.fields.findSome? fun
    | .from address => some address
    | _ => none

/-- `filter.to`: absent, `null` or a string. -/
def «to» (f : EthereumTransactionFilter) : Option (Option String) :=
  f.fields.findSome? fun
    | .to address => some address
    | _ => none

/-- `filter.function`: absent, `null` or a string. -/
def function (f : EthereumTransactionFilter) : Option (Option String) :=
  f.fields.findSome? fun
    | .function signature => some signature
    | _ => none

/-- `filter.type`. -/
def type (f : EthereumTransactionFilter) : Option String :=
  f.fields.findSome? fun
    | .type text => some text
    | _ => none

def toJson (f : EthereumTransactionFilter) : Json :=
  .obj (f.fields.map TransactionFilterField.entry)

end EthereumTransactionFilter

structure EthereumLogFilter where
  topics : Option (List (Option String))
deriving DecidableEq, Repr

def EthereumLogFilter.toJson (f : EthereumLogFilter) : Json :=
  match f.topics with
  | some topics => .obj [("topics", .arr (topics.map nullable))]
  | none => .obj []

/-! ### Handlers and data sources -/

/-- A handler of one of the base kinds, with the name of its function and its filter. -/
inductive SubqlRuntimeHandler
  | block (handler : String) (filter : Option EthereumBlockFilter)
  | call (handler : String) (filter : Option EthereumTransactionFilter)
  | event (handler : String) (filter : Option EthereumLogFilter)
deriving DecidableEq, Repr

def SubqlRuntimeHandler.kind : SubqlRuntimeHandler → EthereumHandlerKind
  | .block _ _ => .block
  | .call _ _ => .call
  | .event _ _ => .event

/-- The filter as a JSON value; `none` for a handler without one. -/
def SubqlRuntimeHandler.filterJson : SubqlRuntimeHandler → Option Json
  | .block _ filter => filter.map EthereumBlockFilter.toJson
  | .call _ filter => filter.map EthereumTransactionFilter.toJson
  | .event _ filter => filter.map EthereumLogFilter.toJson

/-- The kind of a custom handler: any text but those of the base kinds. -/
def CustomKind : Type := { text : String // ∀ kind : EthereumHandlerKind, text ≠ kind.value }

/-- A base handler, or a handler of a custom kind with a filter of any shape. -/
inductive SubqlHandler
  | base (handler : SubqlRuntimeHandler)
  | custom (kind : CustomKind) (handler : String) (filter : Option Json)

/-- The kind as the text the code compares. -/
def SubqlHandler.kind : SubqlHandler → String
  | .base h => h.kind.value
  | .custom kind _ _ => kind.val

def SubqlHandler.filterJson : SubqlHandler → Option Json
  | .base h => h.filterJson
  | .custom _ _ filter => filter

structure SubqlEthereumProcessorOptions where
  abi : Option String := none
  address : Option String := none
deriving DecidableEq, Repr

/-- A data source of kind `ethereum/Runtime`; `assets` maps a name to the file it refers to. -/
structure SubqlRuntimeDatasource where
  options : Option SubqlEthereumProcessorOptions := none
  assets : Option (List (String × String)) := none
  handlers : List SubqlRuntimeHandler
deriving DecidableEq, Repr

/-- A data source of a custom kind, run by a processor. -/
structure SubqlCustomDatasource where
  kind : String
  options : Option SubqlEthereumProcessorOptions := none
  assets : Option (List (String × String)) := none
  handlers : List SubqlHandler

inductive SubqlDatasource
  | runtime (ds : SubqlRuntimeDatasource)
  | custom (ds : SubqlCustomDatasource)

/-- `ds.options?.address`. -/
def SubqlRuntimeDatasource.address (ds : SubqlRuntimeDatasource) : Option String :=
  ds.options.bind (·.address)

def SubqlDatasource.address : SubqlDatasource → Option String
  | .runtime ds => ds.address
  | .custom ds => ds.options.bind (·.address)

/-- `ds.mapping.handlers`. -/
def SubqlDatasource.handlers : SubqlDatasource → List SubqlHandler
  | .runtime ds => ds.handlers.map .base
  | .custom ds => ds.handlers

/-! ### The JSON text of a filter determines the filter -/

theorem nullable_injective : Function.Injective nullable := by
  intro a b h
  cases a <;> cases b <;> simp_all [nullable]

theorem blockFilterField_entry_injective : Function.Injective BlockFilterField.entry := by
  intro a b h
  cases a <;> cases b <;> simp_all [BlockFilterField.entry]

theorem transactionFilterField_entry_injective :
    Function.Injective TransactionFilterField.entry := by
  intro a b h
  cases a <;> cases b <;>
    simp_all [TransactionFilterField.entry, nullable_injective.eq_iff]

theorem blockFilter_toJson_injective : Function.Injective EthereumBlockFilter.toJson := by
  intro f g h
  have hfields : f.fields = g.fields :=
    List.map_injective_iff.mpr blockFilterField_entry_injective (Json.obj.inj h)
  cases f
  cases g
  cases hfields
  rfl

theorem transactionFilter_toJson_injective :
    Function.Injective EthereumTransactionFilter.toJson := by
  intro f g h
  have hfields : f.fields = g.fields :=
    List.map_injective_iff.mpr transactionFilterField_entry_injective (Json.obj.inj h)
  cases f
  cases g
  cases hfields
  rfl

theorem logFilter_toJson_injective : Function.Injective EthereumLogFilter.toJson := by
  intro f g h
  obtain ⟨tf⟩ := f
  obtain ⟨tg⟩ := g
  cases tf with
  | none => cases tg <;> simp_all [EthereumLogFilter.toJson]
  | some tf =>
    cases tg with
    | none => simp [EthereumLogFilter.toJson] at h
    | some tg =>
      have htopics : tf.map nullable = tg.map nullable := by
        simpa [EthereumLogFilter.toJson] using h
      rw [List.map_injective_iff.mpr nullable_injective htopics]

/-- **Base handlers of one kind whose filters are the same JSON value have the same filter.** -/
theorem runtimeHandler_filter_eq (a b : SubqlRuntimeHandler) (hkind : a.kind = b.kind)
    (hjson : a.filterJson = b.filterJson) :
    (∃ m n f, a = .block m f ∧ b = .block n f) ∨ (∃ m n f, a = .call m f ∧ b = .call n f) ∨
      ∃ m n f, a = .event m f ∧ b = .event n f := by
  cases a with
  | block m f =>
    cases b with
    | block n g =>
      have hfg : f = g := Option.map_injective blockFilter_toJson_injective hjson
      exact .inl ⟨m, n, f, rfl, by rw [hfg]⟩
    | call n g => simp [SubqlRuntimeHandler.kind] at hkind
    | event n g => simp [SubqlRuntimeHandler.kind] at hkind
  | call m f =>
    cases b with
    | block n g => simp [SubqlRuntimeHandler.kind] at hkind
    | call n g =>
      have hfg : f = g := Option.map_injective transactionFilter_toJson_injective hjson
      exact .inr (.inl ⟨m, n, f, rfl, by rw [hfg]⟩)
    | event n g => simp [SubqlRuntimeHandler.kind] at hkind
  | event m f =>
    cases b with
    | block n g => simp [SubqlRuntimeHandler.kind] at hkind
    | call n g => simp [SubqlRuntimeHandler.kind] at hkind
    | event n g =>
      have hfg : f = g := Option.map_injective logFilter_toJson_injective hjson
      exact .inr (.inr ⟨m, n, f, rfl, by rw [hfg]⟩)

end SubqlEthereum.Project
