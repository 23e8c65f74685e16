import Mathlib.Data.Nat.Notation
import Mathlib.Data.List.Basic

/-!
# File paths of POSIX systems

`join`, `normalize` and `extname` of Node's `path`.  A path is followed component by component
from a directory, which is the list of the names on the way to it, the innermost first.  Joined
paths are the same text exactly when they lead to the same entry and both or neither end in a
slash (`join_eq_join_iff`).
-/

namespace SubqlEthereum.Paths

abbrev Component := List Char

/-- `..`, the directory above. -/
def up : Component := ['.', '.']

/-! ### Following a path -/

/-- One component followed from a directory; there is nothing above the root. -/
def enter (rooted : Bool) (dir : List Component) (c : Component) : List Component :=
  if c = [] ∨ c = ['.'] then dir
  else if c = up then
    match dir with
    | [] => if rooted then [] else [up]
    | last :: rest => if last = up then up :: last :: rest else rest
  else c :: dir

def follow (rooted : Bool) (dir : List Component) (path : List Char) : List Component :=
  (path.splitOn '/').foldl (enter rooted) dir

def isRooted (path : List Char) : Bool := path.head? = some '/'

/-- The path ends in a slash. -/
def isClosed (path : List Char) : Bool := path.getLast? = some '/'

/-! ### Normalizing and joining -/

/-- The text of a normalized path that leads to `dir`. -/
def render (rooted closed : Bool) (dir : List Component) : List Char :=
  match dir with
  | [] => if rooted then ['/'] else if closed then ['.', '/'] else ['.']
  | _ => (if rooted then ['/'] else []) ++ ['/'].intercalate dir.reverse ++
      (if closed then ['/'] else [])

def normalize (path : List Char) : List Char :=
  if path = [] then ['.']
  else render (isRooted path) (isClosed path) (follow (isRooted path) [] path)

/-- The parts that are not empty, with a slash between any two. -/
def joined (parts : List String) : List Char :=
  ['/'].intercalate ((parts.filter (· ≠ "")).map String.toList)

def join (parts : List String) : String := String.ofList (normalize (joined parts))

/-- The extension: what follows the last dot of the last name, with the dot, unless the name begins
with that dot. -/
def extname (path : String) : String :=
  let name := (path.toList.reverse.dropWhile (· = '/')).takeWhile (· ≠ '/')
  let extension := name.takeWhile (· ≠ '.')
  if name = up then ""
  else match name.drop extension.length with
    | '.' :: _ :: _ => String.ofList ('.' :: extension.reverse)
    | _ => ""

/-! ### What a normalized path consists of -/

/-- The names a directory can be made of. -/
def Named (dir : List Component) : Prop := ∀ c ∈ dir, c ≠ [] ∧ c ≠ ['.'] ∧ '/' ∉ c

theorem not_mem_of_mem_splitOn (sep : Char) (path : List Char) :
    ∀ c ∈ path.splitOn sep, sep ∉ c := by
  induction path with
  | nil => simp
  | cons x path ih =>
    intro c hc
    rw [List.splitOn_cons_eq_if_modifyHead] at hc
    by_cases hx : x = sep
    · rw [if_pos (by simp [hx])] at hc
      rcases List.mem_cons.mp hc with hnil | hrest
      · simp [hnil]
      · exact ih c hrest
    · rw [if_neg (by simp [hx])] at hc
      cases hsplit : path.splitOn sep with
      | nil => exact absurd hsplit (List.splitOn_ne_nil sep path)
      | cons first rest =>
        rw [hsplit] at hc ih
        rcases List.mem_cons.mp hc with hfirst | hrest
        · have hclean := ih first List.mem_cons_self
          rw [hfirst, List.mem_cons, not_or]
          exact ⟨Ne.symm hx, hclean⟩
        · exact ih c (List.mem_cons_of_mem first hrest)

theorem named_enter (rooted : Bool) (dir : List Component) (c : Component) (hdir : Named dir)
    (hc : '/' ∉ c) : Named (enter rooted dir c) := by
  have hup : up ≠ [] ∧ up ≠ ['.'] ∧ '/' ∉ up := by decide
  unfold enter
  split
  · exact hdir
  · rename_i hname
    rw [not_or] at hname
    split
    · split
      · split
        · exact fun c hc => absurd hc List.not_mem_nil
        · exact fun c hc => by rwa [List.mem_singleton.mp hc]
      · rename_i last rest
        split
        · exact fun c hc => (List.mem_cons.mp hc).elim (fun h => by rwa [h]) (hdir c)
        · exact fun c hc => hdir c (List.mem_cons_of_mem last hc)
    · intro d hd
      rcases List.mem_cons.mp hd with hhere | hlater
      · rw [hhere]
        exact ⟨hname.1, hname.2, hc⟩
      · exact hdir d hlater

theorem named_follow (rooted : Bool) (dir : List Component) (path : List Char) (hdir : Named dir) :
    Named (follow rooted dir path) := by
  have hclean := not_mem_of_mem_splitOn '/' path
  rw [follow]
  generalize path.splitOn '/' = components at hclean
  induction components generalizing dir with
  | nil => exact hdir
  | cons c components ih =>
    have hfirst := named_enter rooted dir c hdir (hclean c List.mem_cons_self)
    exact ih (enter rooted dir c) hfirst fun d hd => hclean d (List.mem_cons_of_mem c hd)

theorem named_nil : Named [] := fun _ hc => absurd hc List.not_mem_nil

/-! ### Equal texts -/

/-- Names with slashes between them, and one at the end of a closed path. -/
def body (names : List Component) (closed : Bool) : List Char :=
  ['/'].intercalate names ++ if closed then ['/'] else []

/-- A closed path is one with an empty name at the end. -/
theorem body_eq (names : List Component) (hnames : names ≠ []) (closed : Bool) :
    body names closed = ['/'].intercalate (names ++ if closed then [[]] else []) := by
  cases closed with
  | false => simp [body]
  | true =>
    rw [body]
    induction names with
    | nil => exact absurd rfl hnames
    | cons name names ih =>
      cases names with
      | nil => simp
      | cons next names =>
        have hrest := ih (List.cons_ne_nil next names)
        rw [List.intercalate_cons_cons, List.append_assoc, hrest]
        simp

theorem splitOn_body (names : List Component) (hnames : names ≠ [])
    (hclean : ∀ c ∈ names, '/' ∉ c) (closed : Bool) :
    (body names closed).splitOn '/' = names ++ if closed then [[]] else [] := by
  rw [body_eq names hnames closed]
  apply List.splitOn_intercalate
  · intro c hc
    rcases List.mem_append.mp hc with hname | hend
    · exact hclean c hname
    · cases closed with
      | false => exact absurd hend List.not_mem_nil
      | true => simp [List.mem_singleton.mp hend]
  · exact List.append_ne_nil_of_left_ne_nil hnames _

/-- The text determines the names and whether the path is closed. -/
theorem body_inj (names names' : List Component) (hnames : names ≠ []) (hnames' : names' ≠ [])
    (hclean : ∀ c ∈ names, c ≠ [] ∧ '/' ∉ c) (hclean' : ∀ c ∈ names', c ≠ [] ∧ '/' ∉ c)
    (closed closed' : Bool) :
    body names closed = body names' closed' ↔ names = names' ∧ closed = closed' := by
  constructor
  · intro h
    have hsplit := congrArg (List.splitOn '/') h
    rw [splitOn_body names hnames (fun c hc => (hclean c hc).2),
      splitOn_body names' hnames' (fun c hc => (hclean' c hc).2)] at hsplit
    cases closed with
    | false =>
      cases closed' with
      | false => exact ⟨by simpa using hsplit, rfl⟩
      | true =>
        have hmem : [] ∈ names := by
          rw [if_neg (by simp), List.append_nil, if_pos rfl] at hsplit
          simp [hsplit]
        exact absurd rfl (hclean [] hmem).1
    | true =>
      cases closed' with
      | false =>
        have hmem : [] ∈ names' := by
          rw [if_pos rfl, if_neg (by simp), List.append_nil] at hsplit
          simp [← hsplit]
        exact absurd rfl (hclean' [] hmem).1
      | true => exact ⟨List.append_cancel_right hsplit, rfl⟩
  · intro h
    rw [h.1, h.2]

theorem render_cons (rooted closed : Bool) (dir : List Component) (hdir : dir ≠ []) :
    render rooted closed dir = (if rooted then ['/'] else []) ++ body dir.reverse closed := by
  cases dir with
  | nil => exact absurd rfl hdir
  | cons c dir =>
    show (if rooted then ['/'] else []) ++ ['/'].intercalate (c :: dir).reverse ++ _ = _
    rw [body, List.append_assoc]

theorem Named.reverse {dir : List Component} (h : Named dir) :
    ∀ c ∈ dir.reverse, c ≠ [] ∧ '/' ∉ c :=
  fun c hc => ⟨(h c (List.mem_reverse.mp hc)).1, (h c (List.mem_reverse.mp hc)).2.2⟩

/-- The text of the directory a path starts from is the text of no other. -/
theorem render_nil_ne (rooted closed closed' : Bool) (dir : List Component) (hdir : dir ≠ [])
    (hnamed : Named dir) : render rooted closed [] ≠ render rooted closed' dir := by
  have hreverse : dir.reverse ≠ [] := by simp [hdir]
  rw [render_cons rooted closed' dir hdir]
  intro h
  cases rooted with
  | true =>
    have hempty : body dir.reverse closed' = [] := by simpa [render] using h
    have hsplit := splitOn_body dir.reverse hreverse (fun c hc => (hnamed.reverse c hc).2) closed'
    rw [hempty, List.splitOn_nil] at hsplit
    have hmem : [] ∈ dir.reverse := by
      cases hnames : dir.reverse with
      | nil => exact absurd hnames hreverse
      | cons first rest =>
        rw [hnames, List.cons_append] at hsplit
        rw [← (List.cons.inj hsplit).1]
        exact List.mem_cons_self
    exact (hnamed.reverse [] hmem).1 rfl
  | false =>
    have hdot : body [['.']] closed = body dir.reverse closed' := by
      rw [← List.nil_append (body dir.reverse closed')]
      refine Eq.trans ?_ h
      cases closed with
      | true => rfl
      | false => rfl
    have hnames := (body_inj [['.']] dir.reverse (by simp) hreverse (by simp) hnamed.reverse
      closed closed').mp hdot
    have hmem : ['.'] ∈ dir := by
      rw [← List.mem_reverse, ← hnames.1]
      exact List.mem_singleton_self _
    exact (hnamed ['.'] hmem).2.1 rfl

/-- **The text of a normalized path determines the directory**, and whether it is closed, except
for the root. -/
theorem render_inj (rooted closed closed' : Bool) (dir dir' : List Component) (hnamed : Named dir)
    (hnamed' : Named dir') :
    render rooted closed dir = render rooted closed' dir' ↔
      dir = dir' ∧ (closed = closed' ∨ rooted = true ∧ dir = []) := by
  by_cases hdir : dir = []
  · by_cases hdir' : dir' = []
    · rw [hdir, hdir']
      cases rooted <;> cases closed <;> cases closed' <;> decide
    · rw [hdir]
      exact iff_of_false (render_nil_ne rooted closed closed' dir' hdir' hnamed')
        fun h => hdir' h.1.symm
  · by_cases hdir' : dir' = []
    · rw [hdir']
      exact iff_of_false (fun h => render_nil_ne rooted closed' closed dir hdir hnamed h.symm)
        fun h => hdir h.1
    · rw [render_cons rooted closed dir hdir, render_cons rooted closed' dir' hdir',
        List.append_cancel_left_eq, body_inj dir.reverse dir'.reverse (by simp [hdir])
          (by simp [hdir']) hnamed.reverse hnamed'.reverse, List.reverse_inj]
      simp [hdir]

/-! ### Joined paths -/

theorem follow_slash (rooted : Bool) (dir : List Component) (front back : List Char) :
    follow rooted dir (front ++ '/' :: back) = follow rooted (follow rooted dir front) back := by
  rw [follow, List.splitOn_append_cons_self, List.foldl_append]
  rfl

theorem follow_nil (rooted : Bool) (dir : List Component) : follow rooted dir [] = dir := by
  simp [follow, enter]

/-- Where the parts lead, one after the other. -/
def followParts (rooted : Bool) (dir : List Component) (parts : List String) : List Component :=
  parts.foldl (fun dir part => follow rooted dir part.toList) dir

/-- The parts after the first one that is not empty come after a slash, if any of them is not. -/
theorem joined_cons (part : String) (hpart : part ≠ "") (parts : List String) :
    (joined (part :: parts) = part.toList ∧ joined parts = []) ∨
      joined (part :: parts) = part.toList ++ '/' :: joined parts := by
  have hkeep : (part :: parts).filter (· ≠ "") = part :: parts.filter (· ≠ "") :=
    List.filter_cons_of_pos (by simp [hpart])
  rw [joined, joined, hkeep, List.map_cons]
  by_cases hrest : (parts.filter (· ≠ "")).map String.toList = []
  · left
    rw [hrest, List.intercalate_singleton]
    exact ⟨rfl, rfl⟩
  · right
    rw [List.intercalate_cons_of_ne_nil hrest, List.append_assoc]
    rfl

/-- **Following a joined path is following its parts**; an empty one leads nowhere else. -/
theorem follow_joined (rooted : Bool) (parts : List String) : ∀ dir,
    follow rooted dir (joined parts) = followParts rooted dir parts := by
  induction parts with
  | nil => exact follow_nil rooted
  | cons part parts ih =>
    intro dir
    show _ = followParts rooted (follow rooted dir part.toList) parts
    rw [← ih]
    by_cases hpart : part = ""
    · have hdrop : (part :: parts).filter (· ≠ "") = parts.filter (· ≠ "") :=
        List.filter_cons_of_neg (by simp [hpart])
      have hempty : part.toList = [] := by rw [hpart]; rfl
      rw [joined, hdrop, ← joined, hempty, follow_nil]
    · rcases joined_cons part hpart parts with ⟨hlast, hrest⟩ | hmore
      · rw [hlast, hrest, follow_nil]
      · rw [hmore, follow_slash]

/-- A path is rooted if its first part is. -/
theorem isRooted_joined (base : String) (hbase : base ≠ "") (parts : List String) :
    joined (base :: parts) ≠ [] ∧ isRooted (joined (base :: parts)) = isRooted base.toList := by
  have hchars : base.toList ≠ [] := fun h => hbase (String.toList_eq_nil_iff.mp h)
  rcases joined_cons base hbase parts with ⟨hlast, -⟩ | hmore
  · rw [hlast]
    exact ⟨hchars, rfl⟩
  · rw [hmore]
    refine ⟨List.append_ne_nil_of_left_ne_nil hchars _, ?_⟩
    rw [isRooted, isRooted, List.head?_append_of_ne_nil _ hchars]

/-- **When two paths joined to one directory are the same**: they lead to the same entry, and both
or neither end in a slash, which makes no difference for the root. -/
theorem join_eq_join_iff (base : String) (hbase : base ≠ "") (xs ys : List String) :
    join (base :: xs) = join (base :: ys) ↔
      followParts (isRooted base.toList) [] (base :: xs) =
          followParts (isRooted base.toList) [] (base :: ys) ∧
        (isClosed (joined (base :: xs)) = isClosed (joined (base :: ys)) ∨
          isRooted base.toList = true ∧
            followParts (isRooted base.toList) [] (base :: xs) = []) := by
  obtain ⟨hxs, hrooted⟩ := isRooted_joined base hbase xs
  obtain ⟨hys, hrooted'⟩ := isRooted_joined base hbase ys
  have htext : ∀ path path' : List Char, String.ofList path = String.ofList path' ↔ path = path' :=
    fun path path' => ⟨fun h => String.ofList_injective h, congrArg String.ofList⟩
  rw [join, join, htext, normalize, if_neg hxs, normalize, if_neg hys,
    hrooted, hrooted']
  have hnamed := named_follow (isRooted base.toList) [] (joined (base :: xs)) named_nil
  have hnamed' := named_follow (isRooted base.toList) [] (joined (base :: ys)) named_nil
  rw [render_inj _ _ _ _ _ hnamed hnamed', follow_joined, follow_joined]

end SubqlEthereum.Paths
