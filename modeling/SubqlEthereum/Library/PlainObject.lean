import Mathlib.Data.List.Basic

/-!
# Plain objects used as maps

A JavaScript object written `{}` and used as a map has the properties put into it and those every
object inherits.  A property that is set again hides its earlier value.  Setting `__proto__` to a
value that is no object does nothing.

Where the order of the properties matters, `put` sets one in its place, and `lookup_foldl` says what
a row of such updates leaves under a name.
-/

namespace SubqlEthereum.PlainObject

/-- The names every plain object has a property of. -/
def inheritedNames : List String :=
  ["constructor", "hasOwnProperty", "isPrototypeOf", "propertyIsEnumerable", "toLocaleString",
   "toString", "valueOf", "__defineGetter__", "__defineSetter__", "__lookupGetter__",
   "__lookupSetter__", "__proto__"]

/-- What is found under a name. -/
inductive Property (α : Type*)
  | own (value : α)
  | inherited
  | absent
deriving DecidableEq, Repr

variable {α β : Type*}

/-- The own properties: the one set last first, or in their order as of `put`. -/
abbrev Properties (α : Type*) := List (String × α)

def get (object : Properties α) (name : String) : Property α :=
  match object.lookup name with
  | some value => .own value
  | none => if name ∈ inheritedNames then .inherited else .absent

def set (object : Properties α) (name : String) (value : α) : Properties α :=
  if name = "__proto__" then object else (name, value) :: object

theorem get_eq_own_iff (object : Properties α) (name : String) (value : α) :
    get object name = .own value ↔ object.lookup name = some value := by
  rw [get]
  cases object.lookup name with
  | some other => simp
  | none =>
    by_cases h : name ∈ inheritedNames
    · simp [h]
    · simp [h]

theorem get_eq_absent_iff (object : Properties α) (name : String) :
    get object name = .absent ↔ object.lookup name = none ∧ name ∉ inheritedNames := by
  rw [get]
  cases object.lookup name with
  | some other => simp
  | none => simp

theorem get_eq_inherited_iff (object : Properties α) (name : String) :
    get object name = .inherited ↔ object.lookup name = none ∧ name ∈ inheritedNames := by
  rw [get]
  cases object.lookup name with
  | some other => simp
  | none => simp

theorem lookup_set (object : Properties α) (name other : String) (value : α)
    (hname : name ≠ "__proto__") :
    (set object name value).lookup other =
      if other = name then some value else object.lookup other := by
  rw [set, if_neg hname, List.lookup_cons]
  by_cases h : other = name
  · simp [h]
  · have hne : (other == name) = false := by simp [h]
    rw [hne, if_neg h]

/-! ### Properties in order -/

/-- Sets a property, in its place when the object has it and at the end when it has not. -/
def put : Properties α → String → α → Properties α
  | [], key, value => [(key, value)]
  | (other, old) :: rest, key, value =>
    if other = key then (key, value) :: rest else (other, old) :: put rest key value

/-- `{...object, ...fields}`. -/
def spread (object fields : Properties α) : Properties α :=
  fields.foldl (fun object field => put object field.1 field.2) object

/-- `object[key] = value`.  Assigned to `__proto__` a text is dropped and an object becomes the
prototype, where nothing looks for it. -/
def assign (object : Properties α) (key : String) (value : α) : Properties α :=
  if key = "__proto__" then object else put object key value

theorem lookup_put (object : Properties α) (key other : String) (value : α) :
    (put object key value).lookup other =
      if other = key then some value else object.lookup other := by
  induction object with
  | nil =>
    rw [put, List.lookup_cons]
    by_cases h : other = key
    · simp [h]
    · have hne : (other == key) = false := by simp [h]
      rw [hne, if_neg h]
  | cons entry rest ih =>
    obtain ⟨name, old⟩ := entry
    rw [put]
    by_cases hname : name = key
    · rw [if_pos hname, List.lookup_cons, List.lookup_cons, hname]
      by_cases h : other = key
      · simp [h]
      · have hne : (other == key) = false := by simp [h]
        rw [hne, if_neg h]
    · rw [if_neg hname, List.lookup_cons, List.lookup_cons, ih]
      by_cases h : other = key
      · have hne : (other == name) = false := by
          rw [h]
          simp [Ne.symm hname]
        rw [hne, if_pos h]
      · rw [if_neg h, if_neg h]

/-- **The properties spread last win.** -/
theorem lookup_spread (fields : Properties α) (key : String) :
    ∀ object : Properties α, (fields.map Prod.fst).Nodup →
      (spread object fields).lookup key = (fields.lookup key).or (object.lookup key) := by
  induction fields with
  | nil => exact fun object _ => rfl
  | cons field rest ih =>
    intro object hnodup
    obtain ⟨name, value⟩ := field
    obtain ⟨hfresh, hrest⟩ := List.nodup_cons.mp hnodup
    show (spread (put object name value) rest).lookup key = _
    rw [ih _ hrest, lookup_put, List.lookup_cons]
    by_cases h : key = name
    · have hnone : rest.lookup key = none := by
        rw [List.lookup_eq_none_iff]
        intro entry hentry
        have hne : entry.1 ≠ name := fun heq => hfresh (List.mem_map.mpr ⟨entry, hentry, heq⟩)
        simpa [h] using hne.symm
      rw [hnone, h]
      simp
    · have hne : (key == name) = false := by simp [h]
      rw [hne, if_neg h]

theorem lookup_assign (object : Properties α) (key other : String) (value : α) :
    (assign object key value).lookup other =
      if other = key ∧ key ≠ "__proto__" then some value else object.lookup other := by
  rw [assign]
  by_cases hproto : key = "__proto__"
  · simp [hproto]
  · simp [hproto, lookup_put]

/-- What a row of updates leaves under a name: the last value that was given to it. -/
theorem lookup_foldl (key : β → String) (value : β → α) (name : String)
    (update : Properties α → β → Properties α)
    (hupdate : ∀ object x, (update object x).lookup name =
      if name = key x then some (value x) else object.lookup name) (l : List β) :
    ∀ object, (l.foldl update object).lookup name =
      ((l.reverse.find? fun x => key x = name).map value).or (object.lookup name) := by
  induction l with
  | nil => exact fun object => rfl
  | cons x rest ih =>
    intro object
    rw [List.foldl_cons, ih, hupdate, List.reverse_cons, List.find?_append]
    cases hlater : rest.reverse.find? fun x => key x = name with
    | some y => rfl
    | none =>
      by_cases h : name = key x
      · simp [h]
      · have hne : ¬ key x = name := fun heq => h heq.symm
        simp [h, hne]

theorem lookup_foldl_assign (key : β → String) (value : β → α) (name : String)
    (hname : name ≠ "__proto__") (l : List β) (object : Properties α) :
    (l.foldl (fun object x => assign object (key x) (value x)) object).lookup name =
      ((l.reverse.find? fun x => key x = name).map value).or (object.lookup name) := by
  apply lookup_foldl key value name _ _ l object
  intro object x
  rw [lookup_assign]
  by_cases h : name = key x
  · rw [if_pos ⟨h, by rw [← h]; exact hname⟩, if_pos h]
  · rw [if_neg fun hboth => h hboth.1, if_neg h]

theorem lookup_foldl_put (key : β → String) (value : β → α) (name : String) (l : List β)
    (object : Properties α) :
    (l.foldl (fun object x => put object (key x) (value x)) object).lookup name =
      ((l.reverse.find? fun x => key x = name).map value).or (object.lookup name) :=
  lookup_foldl key value name _ (fun object x => lookup_put object (key x) name (value x)) l object

/-- A property is set in its place, or at the end. -/
theorem mem_put (object : Properties α) (key : String) (value : α) (entry : String × α)
    (h : entry ∈ put object key value) : entry = (key, value) ∨ entry ∈ object := by
  induction object with
  | nil => exact .inl (List.mem_singleton.mp h)
  | cons first rest ih =>
    obtain ⟨other, old⟩ := first
    rw [put] at h
    split at h
    · rcases List.mem_cons.mp h with h | h
      · exact .inl h
      · exact .inr (List.mem_cons_of_mem _ h)
    · rcases List.mem_cons.mp h with h | h
      · exact .inr (h ▸ List.mem_cons_self)
      · rcases ih h with h | h
        · exact .inl h
        · exact .inr (List.mem_cons_of_mem _ h)

theorem put_fresh (object : Properties α) (key : String) (value : α)
    (hfresh : key ∉ object.map Prod.fst) : put object key value = object ++ [(key, value)] := by
  induction object with
  | nil => rfl
  | cons first rest ih =>
    obtain ⟨other, old⟩ := first
    have hne : ¬ other = key := fun h => hfresh (by rw [← h]; exact List.mem_cons_self)
    rw [put, if_neg hne, ih fun h => hfresh (List.mem_cons_of_mem _ h)]
    rfl

theorem nodup_put (object : Properties α) (key : String) (value : α)
    (h : (object.map Prod.fst).Nodup) : ((put object key value).map Prod.fst).Nodup := by
  induction object with
  | nil => exact List.nodup_cons.mpr ⟨List.not_mem_nil, List.nodup_nil⟩
  | cons first rest ih =>
    obtain ⟨other, old⟩ := first
    obtain ⟨hfresh, hrest⟩ := List.nodup_cons.mp h
    rw [put]
    by_cases heq : other = key
    · rw [if_pos heq, List.map_cons, List.nodup_cons, ← heq]
      exact ⟨hfresh, hrest⟩
    · rw [if_neg heq, List.map_cons, List.nodup_cons]
      refine ⟨fun hin => ?_, ih hrest⟩
      obtain ⟨entry, hentry, hkey⟩ := List.mem_map.mp hin
      rcases mem_put rest key value entry hentry with rfl | hold
      · exact heq hkey.symm
      · exact hfresh (by rw [← hkey]; exact List.mem_map_of_mem hold)

theorem nodup_foldl_put (key : β → String) (value : β → α) (l : List β) :
    ∀ object : Properties α, (object.map Prod.fst).Nodup →
      ((l.foldl (fun object x => put object (key x) (value x)) object).map Prod.fst).Nodup := by
  induction l with
  | nil => exact fun object h => h
  | cons x rest ih => exact fun object h => ih _ (nodup_put object (key x) (value x) h)

end SubqlEthereum.PlainObject
