import Mathlib.Data.List.Forall2

/-!
# Fallible computations and loops

What a computation in `Except` that succeeded must have done, and the four loops over a list
that may throw: checking every element (`forM`), converting every element (`mapM`), passing a value
on (`foldlM`), and collecting what each element contributes with an early return (`collect`).
-/

namespace SubqlEthereum.Fallible

/-- A sequence of two fallible steps that succeeds, taken apart. -/
theorem ok_of_bind_ok {ε α β : Type} {x : Except ε α} {f : α → Except ε β} {b : β}
    (h : (x >>= f) = .ok b) : ∃ a, x = .ok a ∧ f a = .ok b := by
  cases x with
  | error e => exact absurd h (by simp [bind, Except.bind])
  | ok a => exact ⟨a, rfl, h⟩

/-- Renaming errors does not change a success. -/
theorem ok_of_mapError_ok {ε ε' α : Type} {f : ε → ε'} {x : Except ε α} {a : α}
    (h : Except.mapError f x = .ok a) : x = .ok a := by
  cases x with
  | error e => exact absurd h (by simp [Except.mapError])
  | ok b => rw [Except.ok.inj h]

theorem isOk_iff {ε α : Type} (x : Except ε α) : x.isOk = true ↔ ∃ a, x = .ok a := by
  cases x with
  | error e => simp [Except.isOk, Except.toBool]
  | ok a => exact iff_of_true rfl ⟨a, rfl⟩

theorem isOk_bind_ok {ε α β : Type} (x : Except ε α) (f : α → β) :
    (x >>= fun a => pure (f a)).isOk = x.isOk := by
  cases x <;> rfl

/-- A step succeeds and what follows it does, whatever it is given. -/
theorem isOk_bind {ε α β : Type} {x : Except ε α} {f : α → Except ε β} {b : Bool}
    (h : ∀ a, (f a).isOk = b) : (x >>= f).isOk = (x.isOk && b) := by
  cases x with
  | error e => rfl
  | ok a => exact h a

/-- Two steps succeed when both do. -/
theorem isOk_bind_bind {ε α β γ : Type} (x : Except ε α) (y : Except ε β) (f : α → β → γ) :
    (x >>= fun a => y >>= fun b => pure (f a b)).isOk = (x.isOk && y.isOk) := by
  cases x with
  | error e => rfl
  | ok a =>
    show (y >>= fun b => pure (f a b)).isOk = _
    rw [isOk_bind_ok]
    rfl

/-! ### Checking and converting every element -/

section Loops

variable {ε α β : Type}

/-- A check of every element that finds nothing. -/
theorem forM_ok (f : α → Except ε Unit) (l : List α) (h : ∀ x ∈ l, f x = .ok ()) :
    l.forM f = .ok () := by
  induction l with
  | nil => rfl
  | cons x xs ih =>
    have hx : f x = .ok () := h x List.mem_cons_self
    have hxs : xs.forM f = .ok () := ih fun y hy => h y (List.mem_cons_of_mem x hy)
    show (f x >>= fun _ => xs.forM f) = .ok ()
    rw [hx]
    exact hxs

/-- A check of every element throws what it throws on some element. -/
theorem forM_error (f : α → Except ε Unit) (l : List α) (x : α) (hx : x ∈ l)
    (h : f x ≠ .ok ()) : ∃ y ∈ l, ∃ e, f y = .error e ∧ l.forM f = .error e := by
  induction l with
  | nil => exact absurd hx List.not_mem_nil
  | cons z zs ih =>
    have hloop : (z :: zs).forM f = (f z >>= fun _ => zs.forM f) := rfl
    rw [hloop]
    cases hz : f z with
    | error e => exact ⟨z, List.mem_cons_self, e, hz, rfl⟩
    | ok u =>
      have hne : x ≠ z := by
        intro hxz
        rw [hxz, hz] at h
        exact h rfl
      have hzs : x ∈ zs := by
        rcases List.mem_cons.mp hx with hxz | hxzs
        · exact absurd hxz hne
        · exact hxzs
      obtain ⟨y, hy, e, hfy, hall⟩ := ih hzs
      exact ⟨y, List.mem_cons_of_mem z hy, e, hfy, hall⟩

/-- A conversion of every element succeeds when each single one does. -/
theorem mapM_ok_iff (f : α → Except ε β) (l : List α) (out : List β) :
    l.mapM f = .ok out ↔ List.Forall₂ (fun x y => f x = .ok y) l out := by
  induction l generalizing out with
  | nil =>
    rw [List.forall₂_nil_left_iff]
    exact ⟨fun h => (Except.ok.inj h).symm, fun h => by rw [h]; rfl⟩
  | cons x xs ih =>
    rw [List.mapM_cons]
    constructor
    · intro h
      obtain ⟨y, hy, hrest⟩ := ok_of_bind_ok h
      obtain ⟨ys, hys, hout⟩ := ok_of_bind_ok hrest
      rw [← Except.ok.inj hout]
      exact .cons hy ((ih ys).mp hys)
    · intro h
      cases h with
      | cons hy hys =>
        rw [hy]
        show (xs.mapM f >>= fun ys => pure (_ :: ys)) = _
        rw [(ih _).mpr hys]
        rfl

theorem mapM_ok (f : α → Except ε β) (l : List α) (h : ∀ x ∈ l, ∃ y, f x = .ok y) :
    ∃ out, l.mapM f = .ok out := by
  induction l with
  | nil => exact ⟨[], rfl⟩
  | cons x xs ih =>
    obtain ⟨y, hy⟩ := h x List.mem_cons_self
    obtain ⟨ys, hys⟩ := ih fun z hz => h z (List.mem_cons_of_mem x hz)
    exact ⟨y :: ys, (mapM_ok_iff f _ _).mpr (.cons hy ((mapM_ok_iff f xs ys).mp hys))⟩

theorem mapM_isOk (f : α → Except ε β) (l : List α) :
    (l.mapM f).isOk = l.all fun x => (f x).isOk := by
  induction l with
  | nil => rfl
  | cons x xs ih =>
    rw [List.mapM_cons, List.all_cons, ← ih]
    exact isOk_bind fun y => isOk_bind_ok _ _

/-- A conversion of every element throws what it throws on some element. -/
theorem mapM_error (f : α → Except ε β) (l : List α) (e : ε) (h : l.mapM f = .error e) :
    ∃ x ∈ l, f x = .error e := by
  induction l with
  | nil => exact absurd h (by simp [pure, Except.pure])
  | cons x xs ih =>
    rw [List.mapM_cons] at h
    cases hx : f x with
    | error e' =>
      rw [hx] at h
      have he : e' = e := Except.error.inj h
      exact ⟨x, List.mem_cons_self, by rw [hx, he]⟩
    | ok y =>
      rw [hx] at h
      cases hxs : xs.mapM f with
      | error e' =>
        have he : e' = e := by
          have hrest : (xs.mapM f >>= fun ys => pure (y :: ys)) = .error e := h
          rw [hxs] at hrest
          exact Except.error.inj hrest
        obtain ⟨z, hz, hfz⟩ := ih (by rw [hxs, he])
        exact ⟨z, List.mem_cons_of_mem x hz, hfz⟩
      | ok ys =>
        have hrest : (xs.mapM f >>= fun ys => pure (y :: ys)) = .error e := h
        rw [hxs] at hrest
        exact absurd hrest (by simp [bind, Except.bind, pure, Except.pure])

/-- A conversion into lists succeeds without any element exactly when each single one does. -/
theorem mapM_flatten_eq_nil_iff (f : α → Except ε (List β)) (l : List α) :
    (∃ out, l.mapM f = .ok out ∧ out.flatten = []) ↔ ∀ x ∈ l, f x = .ok [] := by
  constructor
  · intro h
    obtain ⟨out, hout, hnil⟩ := h
    rw [mapM_ok_iff] at hout
    induction hout with
    | nil => exact fun x hx => absurd hx List.not_mem_nil
    | cons hfirst _ ih =>
      rw [List.flatten_cons, List.append_eq_nil_iff] at hnil
      intro x hx
      rcases List.mem_cons.mp hx with hhere | hlater
      · rw [hhere, hfirst, hnil.1]
      · exact ih hnil.2 x hlater
  · intro h
    induction l with
    | nil => exact ⟨[], rfl, rfl⟩
    | cons x xs ih =>
      obtain ⟨out, hout, hnil⟩ := ih fun y hy => h y (List.mem_cons_of_mem x hy)
      have hx := h x List.mem_cons_self
      refine ⟨[] :: out, ?_, hnil⟩
      rw [mapM_ok_iff]
      exact .cons hx ((mapM_ok_iff f xs out).mp hout)

/-- The first element that passes the test, which may throw. -/
def find (test : α → Except ε Bool) : List α → Except ε (Option α)
  | [] => .ok none
  | x :: xs => do
    let passed ← test x
    if passed then return some x else find test xs

theorem find_eq_none_iff (test : α → Except ε Bool) (l : List α) :
    find test l = .ok none ↔ ∀ x ∈ l, test x = .ok false := by
  induction l with
  | nil => simp [find]
  | cons x xs ih =>
    rw [find, List.forall_mem_cons, ← ih]
    cases hx : test x with
    | error e => simp [bind, Except.bind]
    | ok passed =>
      cases passed with
      | true => simp [bind, Except.bind, pure, Except.pure]
      | false => simp [bind, Except.bind]

/-- The element found is one that passes. -/
theorem of_find_eq_some (test : α → Except ε Bool) (l : List α) (x : α)
    (h : find test l = .ok (some x)) : test x = .ok true := by
  induction l with
  | nil => exact absurd h (by simp [find])
  | cons y ys ih =>
    rw [find] at h
    obtain ⟨passed, hy, hrest⟩ := ok_of_bind_ok h
    cases passed with
    | true =>
      have hyx : y = x := Option.some.inj (Except.ok.inj hrest)
      rw [← hyx, hy]
    | false => exact ih hrest

/-- **The loop invariant** of a loop that passes a value on: it speaks of the elements done and of
the value they left. -/
theorem foldlM_invariant (f : β → α → Except ε β) (Inv : List α → β → Prop)
    (hstep : ∀ done x b b', Inv done b → f b x = .ok b' → Inv (done ++ [x]) b') (xs : List α) :
    ∀ done b b', Inv done b → xs.foldlM f b = .ok b' → Inv (done ++ xs) b' := by
  induction xs with
  | nil =>
    intro done b b' hinv h
    rw [List.append_nil, ← Except.ok.inj h]
    exact hinv
  | cons x xs ih =>
    intro done b b' hinv h
    rw [List.foldlM_cons] at h
    obtain ⟨next, hx, hrest⟩ := ok_of_bind_ok h
    have hall := ih (done ++ [x]) next b' (hstep done x b next hinv hx) hrest
    rw [List.append_assoc, List.singleton_append] at hall
    exact hall

/-- Such a loop throws what one of its steps throws. -/
theorem foldlM_error (f : β → α → Except ε β) (xs : List α) (b : β) (e : ε)
    (h : xs.foldlM f b = .error e) : ∃ x ∈ xs, ∃ b', f b' x = .error e := by
  induction xs generalizing b with
  | nil => exact absurd h (by simp [pure, Except.pure])
  | cons x xs ih =>
    rw [List.foldlM_cons] at h
    cases hx : f b x with
    | error e' =>
      rw [hx] at h
      obtain rfl : e' = e := Except.error.inj h
      exact ⟨x, List.mem_cons_self, b, hx⟩
    | ok next =>
      rw [hx] at h
      obtain ⟨y, hy, b', hthrows⟩ := ih next h
      exact ⟨y, List.mem_cons_of_mem x hy, b', hthrows⟩

end Loops

/-! ### Collecting with an early return -/

variable {α β ε : Type*}

/-- Concatenates the contributions of the elements; `none` is an early return. -/
def collect (f : α → Except ε (Option (List β))) : List α → Except ε (Option (List β))
  | [] => .ok (some [])
  | x :: xs =>
    match f x with
    | .error e => .error e
    | .ok none => .ok none
    | .ok (some ys) =>
      match collect f xs with
      | .error e => .error e
      | .ok none => .ok none
      | .ok (some rest) => .ok (some (ys ++ rest))

/-- A loop that completes past its first element, split into that element and the rest. -/
theorem collect_cons (f : α → Except ε (Option (List β))) (x : α) (xs : List α) (out : List β) :
    collect f (x :: xs) = .ok (some out) ↔
      ∃ ys rest, f x = .ok (some ys) ∧ collect f xs = .ok (some rest) ∧ out = ys ++ rest := by
  constructor
  · intro h
    rw [collect] at h
    cases hx : f x with
    | error e => simp [hx] at h
    | ok contribution =>
      cases contribution with
      | none => simp [hx] at h
      | some ys =>
        cases hxs : collect f xs with
        | error e => simp [hx, hxs] at h
        | ok result =>
          cases result with
          | none => simp [hx, hxs] at h
          | some rest =>
            have hout : ys ++ rest = out := by simpa [hx, hxs] using h
            exact ⟨ys, rest, rfl, rfl, hout.symm⟩
  · intro h
    obtain ⟨ys, rest, hx, hxs, rfl⟩ := h
    rw [collect, hx, hxs]

/-- A loop whose elements all contribute completes. -/
theorem collect_ok (f : α → Except ε (Option (List β))) (l : List α)
    (h : ∀ x ∈ l, ∃ ys, f x = .ok (some ys)) : ∃ out, collect f l = .ok (some out) := by
  induction l with
  | nil => exact ⟨[], rfl⟩
  | cons x xs ih =>
    obtain ⟨ys, hx⟩ := h x List.mem_cons_self
    obtain ⟨rest, hxs⟩ := ih fun y hy => h y (List.mem_cons_of_mem x hy)
    exact ⟨ys ++ rest, (collect_cons f x xs _).mpr ⟨ys, rest, hx, hxs, rfl⟩⟩

/-- Elements that at most stop the loop, and contribute nothing. -/
theorem collect_quiet (f : α → Except ε (Option (List β))) (l : List α)
    (h : ∀ x ∈ l, f x = .ok none ∨ f x = .ok (some [])) :
    collect f l = .ok none ∨ collect f l = .ok (some []) := by
  induction l with
  | nil => exact .inr rfl
  | cons x xs ih =>
    have hxs := ih fun y hy => h y (List.mem_cons_of_mem x hy)
    rw [collect]
    rcases h x List.mem_cons_self with hx | hx
    · rw [hx]
      exact .inl rfl
    · rw [hx]
      rcases hxs with hxs | hxs
      · rw [hxs]
        exact .inl rfl
      · rw [hxs]
        exact .inr rfl

/-- The first element that stops the loop or throws is one that stops it. -/
def givesUp (stops throws : α → Bool) (l : List α) : Bool :=
  (l.find? fun x => stops x || throws x).any stops

/-- **When the loop returns early**: it reaches an element that stops it before any that
throws. -/
theorem collect_none_iff (f : α → Except ε (Option (List β))) (stops throws : α → Bool)
    (l : List α) (hstops : ∀ x, stops x = true ↔ f x = .ok none)
    (hthrows : ∀ x, stops x = false → (throws x = true ↔ ∃ e, f x = .error e)) :
    collect f l = .ok none ↔ givesUp stops throws l = true := by
  induction l with
  | nil => simp [collect, givesUp]
  | cons x xs ih =>
    rw [collect]
    cases hs : stops x with
    | true =>
      have hx := (hstops x).mp hs
      simp [hx, givesUp, hs]
    | false =>
      have hthrow := hthrows x hs
      cases ht : throws x with
      | true =>
        obtain ⟨e, he⟩ := hthrow.mp ht
        simp [he, givesUp, hs, ht]
      | false =>
        have hnext : givesUp stops throws (x :: xs) = givesUp stops throws xs := by
          simp [givesUp, hs, ht]
        rw [hnext, ← ih]
        cases hx : f x with
        | error e =>
          rw [hthrow.mpr ⟨e, hx⟩] at ht
          exact absurd ht (by simp)
        | ok contribution =>
          cases contribution with
          | none =>
            rw [(hstops x).mpr hx] at hs
            exact absurd hs (by simp)
          | some ys =>
            cases collect f xs with
            | error e => simp
            | ok rest => cases rest <;> simp

/-- **A completed loop contains what every element contributed.** -/
theorem collect_mem (f : α → Except ε (Option (List β))) (l : List α) (out : List β)
    (h : collect f l = .ok (some out)) (x : α) (hx : x ∈ l) :
    ∃ ys, f x = .ok (some ys) ∧ ∀ y ∈ ys, y ∈ out := by
  induction l generalizing out with
  | nil => exact absurd hx List.not_mem_nil
  | cons z zs ih =>
    obtain ⟨ys, rest, hz, hzs, hout⟩ := (collect_cons f z zs out).mp h
    subst hout
    rcases List.mem_cons.mp hx with hxz | hxz
    · subst hxz
      exact ⟨ys, hz, fun y hy => List.mem_append_left rest hy⟩
    · obtain ⟨ws, hws, hin⟩ := ih rest hzs hxz
      exact ⟨ws, hws, fun y hy => List.mem_append_right ys (hin y hy)⟩

/-- **It contains nothing else.** -/
theorem collect_origin (f : α → Except ε (Option (List β))) (l : List α) (out : List β)
    (h : collect f l = .ok (some out)) (y : β) (hy : y ∈ out) :
    ∃ x ∈ l, ∃ ys, f x = .ok (some ys) ∧ y ∈ ys := by
  induction l generalizing out with
  | nil =>
    have hnil : out = [] := by simpa [collect] using h.symm
    rw [hnil] at hy
    exact absurd hy List.not_mem_nil
  | cons z zs ih =>
    obtain ⟨ys, rest, hz, hzs, hout⟩ := (collect_cons f z zs out).mp h
    rw [hout, List.mem_append] at hy
    rcases hy with hy | hy
    · exact ⟨z, List.mem_cons_self, ys, hz, hy⟩
    · obtain ⟨x, hx, hxs⟩ := ih rest hzs hy
      exact ⟨x, List.mem_cons_of_mem z hx, hxs⟩

/-- What one element does in a loop and what another does in its own: both throw, both stop it, or
both contribute, and the contributions correspond. -/
inductive SameResult (R : β → β → Prop) :
    Except ε (Option (List β)) → Except ε (Option (List β)) → Prop
  | throws {e e' : ε} : SameResult R (.error e) (.error e')
  | stops : SameResult R (.ok none) (.ok none)
  | gives {ys ys' : List β} : List.Forall₂ R ys ys' → SameResult R (.ok (some ys)) (.ok (some ys'))

/-- What corresponds to an element that contributes contributes too. -/
theorem SameResult.of_some {R : β → β → Prop} {ys : List β} {r : Except ε (Option (List β))}
    (h : SameResult R (.ok (some ys)) r) :
    ∃ ys', r = .ok (some ys') ∧ List.Forall₂ R ys ys' := by
  cases h with
  | gives hys => exact ⟨_, rfl, hys⟩

/-- A branch both take or both do not. -/
theorem SameResult.ite {R : β → β → Prop} {c : Bool} {r r' s s' : Except ε (Option (List β))}
    (hthen : SameResult R r r') (helse : SameResult R s s') :
    SameResult R (if c = true then r else s) (if c = true then r' else s') := by
  cases c with
  | true => exact hthen
  | false => exact helse

theorem exists_related {γ : Type*} {R : β → γ → Prop} {xs : List β} {ys : List γ}
    (h : List.Forall₂ R xs ys) {x : β} (hx : x ∈ xs) : ∃ y ∈ ys, R x y := by
  induction h with
  | nil => exact absurd hx List.not_mem_nil
  | cons hfirst _ ih =>
    rcases List.mem_cons.mp hx with rfl | hlater
    · exact ⟨_, List.mem_cons_self, hfirst⟩
    · obtain ⟨y, hy, hR⟩ := ih hlater
      exact ⟨y, List.mem_cons_of_mem _ hy, hR⟩

/-- A test that related elements pass alike is passed by all of both lists alike. -/
theorem all_eq_of_forall₂ {α β : Type*} {R : α → β → Prop} {f : α → Bool} {g : β → Bool}
    (hfg : ∀ x y, R x y → f x = g y) {xs : List α} {ys : List β} (h : List.Forall₂ R xs ys) :
    xs.all f = ys.all g := by
  induction h with
  | nil => rfl
  | cons hxy _ ih => rw [List.all_cons, List.all_cons, hfg _ _ hxy, ih]

/-- Tests that corresponding elements pass alike find one in both lists or in neither. -/
theorem exists_iff_of_corresponding {α β : Type*} {R : α → β → Prop} {xs : List α} {ys : List β}
    (hforth : ∀ x ∈ xs, ∃ y ∈ ys, R x y) (hback : ∀ y ∈ ys, ∃ x ∈ xs, R x y) {f : α → Bool}
    {g : β → Bool} (hfg : ∀ x y, R x y → f x = g y) :
    (∃ x ∈ xs, f x = true) ↔ ∃ y ∈ ys, g y = true := by
  constructor
  · intro h
    obtain ⟨x, hx, hf⟩ := h
    obtain ⟨y, hy, hR⟩ := hforth x hx
    exact ⟨y, hy, by rw [← hfg x y hR, hf]⟩
  · intro h
    obtain ⟨y, hy, hg⟩ := h
    obtain ⟨x, hx, hR⟩ := hback y hy
    exact ⟨x, hx, by rw [hfg x y hR, hg]⟩

/-- **Loops over corresponding elements.**  When one completes, so does the other, and what they
collect corresponds. -/
theorem collect_corresponding {R : β → β → Prop} (f : α → Except ε (Option (List β)))
    (l l' : List α) (out : List β) (hforth : ∀ x ∈ l, ∃ x' ∈ l', SameResult R (f x) (f x'))
    (hback : ∀ x' ∈ l', ∃ x ∈ l, SameResult R (f x) (f x'))
    (h : collect f l = .ok (some out)) :
    ∃ out', collect f l' = .ok (some out') ∧ (∀ y ∈ out, ∃ y' ∈ out', R y y') ∧
      ∀ y' ∈ out', ∃ y ∈ out, R y y' := by
  have hcontributes : ∀ x' ∈ l', ∃ x ∈ l, ∃ ys ys', f x = .ok (some ys) ∧
      f x' = .ok (some ys') ∧ List.Forall₂ R ys ys' := by
    intro x' hx'
    obtain ⟨x, hx, hsame⟩ := hback x' hx'
    obtain ⟨ys, hys, -⟩ := collect_mem f l out h x hx
    rw [hys] at hsame
    obtain ⟨ys', hys', hrelated⟩ := hsame.of_some
    exact ⟨x, hx, ys, ys', hys, hys', hrelated⟩
  obtain ⟨out', hout'⟩ := collect_ok f l' fun x' hx' => by
    obtain ⟨_, _, _, ys', _, hys', _⟩ := hcontributes x' hx'
    exact ⟨ys', hys'⟩
  refine ⟨out', hout', ?_, ?_⟩
  · intro y hy
    obtain ⟨x, hx, ys, hys, hmem⟩ := collect_origin f l out h y hy
    obtain ⟨x', hx', hsame⟩ := hforth x hx
    rw [hys] at hsame
    obtain ⟨ys', hys', hrelated⟩ := hsame.of_some
    obtain ⟨zs, hzs, hin⟩ := collect_mem f l' out' hout' x' hx'
    rw [hys'] at hzs
    obtain rfl := Option.some.inj (Except.ok.inj hzs)
    obtain ⟨y', hy', hR⟩ := exists_related hrelated hmem
    exact ⟨y', hin y' hy', hR⟩
  · intro y' hy'
    obtain ⟨x', hx', zs, hzs, hmem⟩ := collect_origin f l' out' hout' y' hy'
    obtain ⟨x, hx, ys, ys', hys, hys', hrelated⟩ := hcontributes x' hx'
    rw [hys'] at hzs
    obtain rfl := Option.some.inj (Except.ok.inj hzs)
    obtain ⟨ws, hws, hin⟩ := collect_mem f l out h x hx
    rw [hys] at hws
    obtain rfl := Option.some.inj (Except.ok.inj hws)
    obtain ⟨y, hy, hR⟩ := exists_related hrelated.flip hmem
    exact ⟨y, hin y hy, hR⟩

/-- A loop none of whose elements throws does not throw. -/
theorem collect_isOk (f : α → Except ε (Option (List β))) (l : List α)
    (h : ∀ x ∈ l, ∀ e, f x ≠ .error e) : ∃ result, collect f l = .ok result := by
  induction l with
  | nil => exact ⟨_, rfl⟩
  | cons x xs ih =>
    obtain ⟨result, hresult⟩ := ih fun y hy => h y (List.mem_cons_of_mem x hy)
    rw [collect]
    cases hx : f x with
    | error e => exact absurd hx (h x List.mem_cons_self e)
    | ok contribution =>
      cases contribution with
      | none => exact ⟨_, rfl⟩
      | some ys =>
        rw [hresult]
        cases result with
        | none => exact ⟨_, rfl⟩
        | some rest => exact ⟨_, rfl⟩

/-- Likewise where the elements that throw are told by a test. -/
theorem collect_isOk_of_test (f : α → Except ε (Option (List β))) (stops throws : α → Bool)
    (l : List α) (hstops : ∀ x, stops x = true ↔ f x = .ok none)
    (hthrows : ∀ x, stops x = false → (throws x = true ↔ ∃ e, f x = .error e))
    (h : ∀ x ∈ l, throws x = false) : ∃ result, collect f l = .ok result := by
  refine collect_isOk f l ?_
  intro x hx e herror
  cases hs : stops x with
  | true =>
    rw [(hstops x).mp hs] at herror
    exact absurd herror (by simp)
  | false =>
    have hthrow := (hthrows x hs).mpr ⟨e, herror⟩
    rw [h x hx] at hthrow
    exact absurd hthrow (by simp)

end SubqlEthereum.Fallible
