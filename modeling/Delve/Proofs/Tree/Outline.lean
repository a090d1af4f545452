import Delve.Proofs.Coordinates
import Delve.Proofs.Lines
import Delve.Proofs.Tree.Leaves
import Delve.Proofs.Tree.Signpost
import Delve.Tree.Outline
import Mathlib.Data.List.Nodup
/-!
# What an outline tells

The text of a tree tells its shape: which kinds of nodes there are, what of a node is named in its
line, and where each of them stands. A line tells the level of its node by its margin, and what
belongs to a node ends where the margin is no wider than that of the node. So the lines are taken
apart again into the same nodes from the top, however deep and wide the tree is. The main statement
is `describe_identifies`.
-/

namespace Delve

variable {τ τ' π π' : Type}

/-! ## 1. What a line tells of its node -/

/-- What can be told of a node from its own line. -/
inductive NodeKind where
  | sequence
  | selector
  | condition (bound : Bool)
  | failure
  | ignoreFailure
  | repeater (limit : Repeat)
  | task (name : String)
deriving DecidableEq

def NodeKind.text : NodeKind → String
  | sequence => "[SEQ]"
  | selector => "[SEL]"
  | condition true => "[COND]"
  | condition false => "[COND unbound]"
  | failure => "[FAIL]"
  | ignoreFailure => "[SUCC]"
  | repeater limit => "[REPEAT " ++ limit.text ++ "]"
  | task name => "[TASK " ++ name ++ "]"

theorem Text.showNat_inj {n m : Nat} (h : showNat n = showNat m) : n = m := by
  have hvalue := congrArg (Nat.ofDigitChars 10 · 0) h
  simpa only [showNat, Nat.ofDigitChars_ten_toDigits] using hvalue

theorem Repeat.toList_times (n : UInt32) : (Repeat.times n).text.toList = Text.showNat n.toNat :=
  Nat.toList_repr

/-- A number is not the word for an endless repetition, since it begins with a digit. -/
theorem Repeat.text_times_ne_forever (n : UInt32) :
    (Repeat.times n).text ≠ Repeat.forever.text := by
  intro h
  have hmem : 'f' ∈ Text.showNat n.toNat := by
    rw [← Repeat.toList_times, h]
    decide
  exact absurd (Text.isDigit_of_mem_showNat hmem) (by decide)

theorem Repeat.text_inj {a b : Repeat} (h : a.text = b.text) : a = b := by
  cases a with
  | times n =>
    cases b with
    | times m =>
      have hdigits : Text.showNat n.toNat = Text.showNat m.toNat := by
        rw [← Repeat.toList_times, ← Repeat.toList_times, h]
      rw [UInt32.toNat_inj.mp (Text.showNat_inj hdigits)]
    | forever => exact absurd h (text_times_ne_forever n)
  | forever =>
    cases b with
    | times m => exact absurd h.symm (text_times_ne_forever m)
    | forever => rfl

/-- The texts of two kinds differ in the word behind the bracket or in what follows it. -/
theorem NodeKind.text_inj {k k' : NodeKind} (h : k.text = k'.text) : k = k' := by
  have hchars := congrArg String.toList h
  -- two kinds that take nothing into their texts are told apart by a character
  rcases k with _ | _ | (_ | _) | _ | _ | limit | name <;>
    rcases k' with _ | _ | (_ | _) | _ | _ | limit' | name' <;>
    simp [text] at hchars ⊢
  case repeater.repeater => exact Repeat.text_inj (String.toList_inj.mp hchars)
  case task.task => exact String.toList_inj.mp hchars

namespace Node

/-- The kind of a node, with the name of a task. -/
def kind (name : τ → String) : Node τ π → NodeKind
  | sequence _ _ => .sequence
  | selector _ _ => .selector
  | condition _ p _ => .condition p.isSome
  | failure _ => .failure
  | ignoreFailure _ _ => .ignoreFailure
  | repeater _ limit _ _ => .repeater limit
  | task _ t => .task (name t)

theorem heading_eq (name : τ → String) (n : Node τ π) : n.heading name = (n.kind name).text := by
  rcases n with _ | _ | ⟨_, _ | _, _⟩ | _ | _ | _ | _ <;> rfl

/-! ## 2. Nodes through their children -/

/-- What holds of a node whenever it holds of its children holds of every node. -/
theorem children_induction {P : Node τ π → Prop} (h : ∀ n, (∀ c ∈ n.children, P c) → P n)
    (n : Node τ π) : P n := by
  induction n.over_of_forall (S := fun _ ↦ True) (K := fun _ ↦ True) (fun _ ↦ trivial)
    (fun _ ↦ trivial) with
  | sequence _ ih | selector _ ih => exact h _ ih
  | condition _ _ ih => exact h _ fun c hc ↦ ih c (Option.mem_toList.mp hc)
  | failure | task => exact h _ (List.forall_mem_nil P)
  | ignoreFailure _ ih | repeater _ ih => exact h _ (List.forall_mem_singleton.mpr ih)

theorem outlines_eq_flatMap (name : τ → String) (depth : Nat) (cs : List (Node τ π)) :
    outlines name depth cs = cs.flatMap (outline name depth) := by
  induction cs with
  | nil => rfl
  | cons c cs ih => rw [outlines, ih, List.flatMap_cons]

theorem outline_eq (name : τ → String) (depth : Nat) (n : Node τ π) :
    n.outline name depth =
      indented depth (n.heading name) :: n.children.flatMap (outline name (depth + 1)) := by
  rcases n with _ | _ | ⟨_, _, _ | c⟩ | _ | _ | _ | _ <;>
    simp [outline, children, outlines_eq_flatMap]

theorem outline_ne_nil (name : τ → String) (depth : Nat) (n : Node τ π) :
    n.outline name depth ≠ [] := by
  rw [outline_eq]
  exact List.cons_ne_nil _ _

/-! ## 3. Margins -/

/-- The number of blanks that a line begins with. -/
def margin (line : String) : Nat := (line.toList.takeWhile (· == ' ')).length

theorem exists_toList_heading (name : τ → String) (n : Node τ π) :
    ∃ cs, (n.heading name).toList = '[' :: cs := by
  rw [heading_eq]
  rcases n.kind name with _ | _ | (_ | _) | _ | _ | limit | task <;> simp [NodeKind.text]

theorem margin_indented (name : τ → String) (depth : Nat) (n : Node τ π) :
    margin (indented depth (n.heading name)) = 2 * depth := by
  obtain ⟨cs, hcs⟩ := n.exists_toList_heading name
  have hblank : ∀ c ∈ List.replicate (2 * depth) ' ', (c == ' ') = true := by
    intro c hc
    rw [List.eq_of_mem_replicate hc]
    rfl
  rw [margin, indented, String.toList_append, String.toList_ofList, hcs,
    List.takeWhile_append_of_pos hblank]
  simp

/-! ## 4. Taking the lines apart -/

/-- The two subtrees have the same shape: their nodes are of one kind, with the same limit, the same
name and the same predicate bound or not, and so are their children, one after another. -/
inductive SameShape (name : τ → String) (name' : τ' → String) : Node τ π → Node τ' π' → Prop
  | intro {n : Node τ π} {m : Node τ' π'} : n.kind name = m.kind name' →
      List.Forall₂ (SameShape name name') n.children m.children → SameShape name name' n m

/-- What follows belongs to a level above `depth`: nothing follows, or the margin is narrower. -/
def EndsBefore (depth : Nat) (rest : List String) : Prop :=
  ∀ line ∈ rest.head?, margin line < 2 * depth

theorem EndsBefore.mono {depth depth' : Nat} {rest : List String} (h : EndsBefore depth rest)
    (hdepth : depth ≤ depth') : EndsBefore depth' rest :=
  fun line hline ↦ Nat.lt_of_lt_of_le (h line hline) (Nat.mul_le_mul_left 2 hdepth)

theorem endsBefore_outline (name : τ → String) (depth : Nat) (n : Node τ π) (rest : List String) :
    EndsBefore (depth + 1) (n.outline name depth ++ rest) := by
  intro line hline
  rw [outline_eq, List.cons_append, List.head?_cons, Option.mem_some_iff] at hline
  rw [← hline, margin_indented]
  omega

theorem not_endsBefore_outline (name : τ → String) (depth : Nat) (n : Node τ π)
    (rest : List String) : ¬ EndsBefore depth (n.outline name depth ++ rest) := by
  intro h
  rw [outline_eq] at h
  have hmargin := h _ rfl
  rw [margin_indented] at hmargin
  omega

theorem endsBefore_outlines (name : τ → String) (cs : List (Node τ π)) {depth : Nat}
    {rest : List String} (hrest : EndsBefore depth rest) :
    EndsBefore (depth + 1) (cs.flatMap (outline name depth) ++ rest) := by
  cases cs with
  | nil => exact hrest.mono (Nat.le_succ depth)
  | cons c cs =>
    rw [List.flatMap_cons, List.append_assoc]
    exact endsBefore_outline name depth c _

/-- The lines of a subtree are told apart from what follows, and tell its shape. -/
def Decodes (π' : Type) (name : τ → String) (name' : τ' → String) (n : Node τ π) : Prop :=
  ∀ (m : Node τ' π') (depth : Nat) (rest rest' : List String),
    EndsBefore (depth + 1) rest → EndsBefore (depth + 1) rest' →
    n.outline name depth ++ rest = m.outline name' depth ++ rest' →
      SameShape name name' n m ∧ rest = rest'

variable {name : τ → String} {name' : τ' → String}

/-- By induction on the children: behind the last one the margin is narrower. -/
theorem children_decode {cs : List (Node τ π)} {ds : List (Node τ' π')} {depth : Nat}
    {rest rest' : List String} (hcs : ∀ c ∈ cs, c.Decodes π' name name')
    (hrest : EndsBefore depth rest) (hrest' : EndsBefore depth rest')
    (h : cs.flatMap (outline name depth) ++ rest = ds.flatMap (outline name' depth) ++ rest') :
    List.Forall₂ (SameShape name name') cs ds ∧ rest = rest' := by
  induction cs generalizing ds with
  | nil =>
    cases ds with
    | nil => exact ⟨.nil, h⟩
    | cons d ds =>
      -- the line of `d` is no line that may follow
      rw [List.flatMap_nil, List.nil_append, List.flatMap_cons, List.append_assoc] at h
      rw [h] at hrest
      exact absurd hrest (not_endsBefore_outline name' depth d _)
  | cons c cs ih =>
    obtain ⟨hc, hcs⟩ := List.forall_mem_cons.mp hcs
    cases ds with
    | nil =>
      -- nor is the line of `c`
      rw [List.flatMap_nil, List.nil_append, List.flatMap_cons, List.append_assoc] at h
      rw [← h] at hrest'
      exact absurd hrest' (not_endsBefore_outline name depth c _)
    | cons d ds =>
      rw [List.flatMap_cons, List.flatMap_cons, List.append_assoc, List.append_assoc] at h
      obtain ⟨hshape, hlater⟩ := hc d depth _ _ (endsBefore_outlines name cs hrest)
        (endsBefore_outlines name' ds hrest') h
      obtain ⟨hshapes, heq⟩ := ih hcs hlater
      exact ⟨.cons hshape hshapes, heq⟩

/-- By induction on the subtree: its first line tells the kind of the node, and the lines below are
those of its children. -/
theorem decodes (n : Node τ π) : n.Decodes π' name name' := by
  induction n using children_induction with
  | h n ih =>
    intro m depth rest rest' hrest hrest' h
    rw [outline_eq name, outline_eq name', List.cons_append, List.cons_append] at h
    obtain ⟨hline, hbelow⟩ := List.cons.inj h
    obtain ⟨hchildren, heq⟩ := children_decode ih hrest hrest' hbelow
    have hheading := (String.append_right_inj _).mp hline
    rw [heading_eq, heading_eq] at hheading
    exact ⟨.intro (NodeKind.text_inj hheading) hchildren, heq⟩

/-- Subtrees of one shape have the same lines. -/
theorem outline_eq_of_sameShape (n : Node τ π) :
    ∀ {m : Node τ' π'}, SameShape name name' n m → ∀ depth,
      n.outline name depth = m.outline name' depth := by
  induction n using children_induction with
  | h n ih =>
    intro m hshape depth
    obtain ⟨hkind, hchildren⟩ := hshape
    have hbelow : ∀ {cs : List (Node τ π)} {ds : List (Node τ' π')}, (∀ c ∈ cs, c ∈ n.children) →
        List.Forall₂ (SameShape name name') cs ds →
          cs.flatMap (outline name (depth + 1)) = ds.flatMap (outline name' (depth + 1)) := by
      intro cs ds hmem hshapes
      induction hshapes with
      | nil => rfl
      | cons hcd _ ihs =>
        obtain ⟨hc, hcs⟩ := List.forall_mem_cons.mp hmem
        rw [List.flatMap_cons, List.flatMap_cons, ih _ hc hcd, ihs hcs]
    rw [outline_eq name, outline_eq name', heading_eq, heading_eq, hkind,
      hbelow (fun _ ↦ id) hchildren]

/-! ## 5. The nodes in the order of their lines -/

mutual

/-- The nodes of a subtree in preorder, each with its address. -/
def census : Node τ π → List (Address × Node τ π)
  | n@(sequence _ cs) | n@(selector _ cs) => ([], n) :: censusFrom 0 cs
  | n@(condition _ _ (some c)) | n@(ignoreFailure _ c) | n@(repeater _ _ _ c) =>
    ([], n) :: (census c).map fun x ↦ (0 :: x.1, x.2)
  | n@(condition _ _ none) | n@(failure _) | n@(task _ _) => [([], n)]

/-- The nodes of the children from the `i`-th on. -/
def censusFrom (i : Nat) : List (Node τ π) → List (Address × Node τ π)
  | [] => []
  | c :: cs => ((census c).map fun x ↦ (i :: x.1, x.2)) ++ censusFrom (i + 1) cs

end

theorem census_eq (n : Node τ π) : n.census = ([], n) :: censusFrom 0 n.children := by
  rcases n with _ | _ | ⟨_, _, _ | c⟩ | _ | _ | _ | _ <;> simp [census, censusFrom, children]

theorem mem_censusFrom {cs : List (Node τ π)} {i : Nat} {spot : Address} {m : Node τ π}
    (hcs : ∀ c ∈ cs, ∀ spot, (spot, m) ∈ c.census ↔ c.at? spot = some m) :
    (spot, m) ∈ censusFrom i cs ↔
      ∃ j later, spot = (i + j) :: later ∧ cs[j]?.bind (·.at? later) = some m := by
  induction cs generalizing i with
  | nil => simp [censusFrom]
  | cons c cs ih =>
    obtain ⟨hc, hcs⟩ := List.forall_mem_cons.mp hcs
    rw [censusFrom, List.mem_append, ih hcs, List.mem_map]
    constructor
    · rintro (⟨⟨later, m'⟩, hmem, heq⟩ | ⟨j, later, rfl, hat⟩)
      · obtain ⟨rfl, rfl⟩ := Prod.mk.inj heq
        exact ⟨0, later, rfl, (hc later).mp hmem⟩
      · exact ⟨j + 1, later, by rw [Nat.add_right_comm, Nat.add_assoc], hat⟩
    · rintro ⟨j, later, rfl, hat⟩
      cases j with
      | zero => exact Or.inl ⟨(later, m), (hc later).mpr hat, rfl⟩
      | succ j => exact Or.inr ⟨j, later, by rw [Nat.add_right_comm, Nat.add_assoc], hat⟩

/-- The census lists exactly the nodes that there are, under their addresses. -/
theorem mem_census (n m : Node τ π) (spot : Address) :
    (spot, m) ∈ n.census ↔ n.at? spot = some m := by
  induction n using children_induction generalizing spot with
  | h n ih =>
    rw [census_eq, List.mem_cons, mem_censusFrom ih]
    cases spot with
    | nil => simp [eq_comm]
    | cons i later => simp [at?]

/-- The addresses below different children differ in their first number. -/
theorem nodup_censusFrom {cs : List (Node τ π)} (i : Nat)
    (hcs : ∀ c ∈ cs, (c.census.map Prod.fst).Nodup) :
    ((censusFrom i cs).map Prod.fst).Nodup ∧
      ∀ spot ∈ (censusFrom i cs).map Prod.fst, ∃ j later, i ≤ j ∧ spot = j :: later := by
  induction cs generalizing i with
  | nil => simp [censusFrom]
  | cons c cs ih =>
    obtain ⟨hc, hcs⟩ := List.forall_mem_cons.mp hcs
    obtain ⟨hnodup, hlater⟩ := ih (i + 1) hcs
    have hfirst : ((c.census.map fun x ↦ (i :: x.1, x.2)).map Prod.fst) =
        (c.census.map Prod.fst).map (i :: ·) := by
      rw [List.map_map, List.map_map]
      rfl
    rw [censusFrom, List.map_append, hfirst]
    constructor
    · refine List.nodup_append.mpr ⟨List.Nodup.map List.cons_injective hc, hnodup, ?_⟩
      rintro _ hspot _ hspot' rfl
      obtain ⟨later, -, rfl⟩ := List.mem_map.mp hspot
      obtain ⟨j, later', hj, heq⟩ := hlater _ hspot'
      have hhead := (List.cons.inj heq).1
      omega
    · intro spot hspot
      rcases List.mem_append.mp hspot with hspot | hspot
      · obtain ⟨later, -, rfl⟩ := List.mem_map.mp hspot
        exact ⟨i, later, Nat.le_refl i, rfl⟩
      · obtain ⟨j, later, hj, rfl⟩ := hlater spot hspot
        exact ⟨j, later, Nat.le_of_succ_le hj, rfl⟩

/-- No address is listed twice. -/
theorem nodup_census (n : Node τ π) : (n.census.map Prod.fst).Nodup := by
  induction n using children_induction with
  | h n ih =>
    obtain ⟨hnodup, hbelow⟩ := nodup_censusFrom 0 ih
    rw [census_eq, List.map_cons, List.nodup_cons]
    refine ⟨fun hmem ↦ ?_, hnodup⟩
    obtain ⟨j, later, -, hspot⟩ := hbelow _ hmem
    cases hspot

theorem flatMap_outline_eq {cs : List (Node τ π)} (depth i : Nat)
    (hcs : ∀ c ∈ cs, ∀ depth, c.outline name depth =
      c.census.map fun x ↦ indented (depth + x.1.length) (x.2.heading name)) :
    cs.flatMap (outline name (depth + 1)) =
      (censusFrom i cs).map fun x ↦ indented (depth + x.1.length) (x.2.heading name) := by
  induction cs generalizing i with
  | nil => rfl
  | cons c cs ih =>
    obtain ⟨hc, hcs⟩ := List.forall_mem_cons.mp hcs
    rw [List.flatMap_cons, censusFrom, List.map_append, hc, ih (i + 1) hcs, List.map_map]
    refine congrArg (· ++ _) (List.map_congr_left fun x _ ↦ ?_)
    show indented (depth + 1 + x.1.length) _ = indented (depth + (x.1.length + 1)) _
    rw [Nat.add_right_comm, Nat.add_assoc]

/-- There is one line for each node, and its margin tells the length of the address. -/
theorem outline_eq_map_census (name : τ → String) (n : Node τ π) : ∀ depth,
    n.outline name depth =
      n.census.map fun x ↦ indented (depth + x.1.length) (x.2.heading name) := by
  induction n using children_induction with
  | h n ih =>
    intro depth
    rw [outline_eq, census_eq, List.map_cons, flatMap_outline_eq depth 0 ih]
    rfl

/-! ## 6. The lines of the text -/

theorem notMem_repeatText (limit : Repeat) : '\n' ∉ limit.text.toList := by
  cases limit with
  | times n =>
    intro hmem
    rw [Repeat.toList_times] at hmem
    exact absurd (Text.isDigit_of_mem_showNat hmem) (by decide)
  | forever => decide

/-- Only the name of a task could break a line. -/
theorem notMem_kindText {k : NodeKind} (h : ∀ task, k = .task task → '\n' ∉ task.toList) :
    '\n' ∉ k.text.toList := by
  rcases k with _ | _ | (_ | _) | _ | _ | limit | task
  case repeater => simpa [NodeKind.text] using notMem_repeatText limit
  case task => simpa [NodeKind.text] using h task rfl
  all_goals decide

/-- Every line ends with a bracket, so nothing of it could be taken for a part of the line feed. -/
theorem getLast?_kindText (k : NodeKind) : k.text.toList.getLast? = some ']' := by
  rcases k with _ | _ | (_ | _) | _ | _ | limit | task
  case repeater | task => rw [NodeKind.text, String.toList_append]; exact List.getLast?_concat
  all_goals decide

theorem indented_indented (depth depth' : Nat) (line : String) :
    indented depth (indented depth' line) = indented (depth + depth') line := by
  rw [indented, indented, indented, ← String.append_assoc, ← String.ofList_append,
    List.replicate_append_replicate, Nat.mul_add]

/-- The name of no task breaks a line. -/
abbrev Unbroken (name : τ → String) : Node τ π → Prop :=
  Over (fun t ↦ '\n' ∉ (name t).toList) fun _ ↦ True

theorem Unbroken.notMem_heading {n : Node τ π} (h : n.Unbroken name) :
    '\n' ∉ (n.heading name).toList := by
  rw [heading_eq]
  refine notMem_kindText fun task hkind ↦ ?_
  cases h with
  | task ht =>
    obtain rfl := NodeKind.task.inj hkind
    exact ht
  | _ => cases hkind

/-- No line of the subtree breaks or ends with a carriage return. -/
theorem Unbroken.mem_outline {n : Node τ π} (h : n.Unbroken name) {depth : Nat} :
    ∀ line ∈ n.outline name depth, '\n' ∉ line.toList ∧ line.toList.getLast? ≠ some '\r' := by
  intro line hline
  rw [outline_eq_map_census] at hline
  obtain ⟨⟨spot, m⟩, hm, rfl⟩ := List.mem_map.mp hline
  have hm := at?_of_children (fun _ ↦ Over.children) h ((mem_census n m spot).mp hm)
  have hhead := Unbroken.notMem_heading hm
  have hblanks : '\n' ∉ List.replicate (2 * (depth + spot.length)) ' ' :=
    fun hmem ↦ absurd (List.eq_of_mem_replicate hmem) (by decide)
  rw [indented, String.toList_append, String.toList_ofList, List.getLast?_append]
  refine ⟨fun hmem ↦ (List.mem_append.mp hmem).elim hblanks hhead, ?_⟩
  rw [heading_eq, getLast?_kindText, Option.some_or]
  decide

/-- The text of a subtree is read back as its lines. -/
theorem lines_describe {n : Node τ π} (h : n.Unbroken name) :
    Text.lines (n.describe name) = n.outline name 0 :=
  Text.lines_unlines h.mem_outline

end Node

/-! ## 7. The text of a tree -/

namespace Tree

variable {name : τ → String} {name' : τ' → String} {t : Tree τ π} {t' : Tree τ' π'}

/-- The nodes of a tree in preorder, each with its address. -/
def census (t : Tree τ π) : List (Address × Node τ π) := t.body.elim [] Node.census

/-- The line of a node in the text of its tree: the body stands one level in. -/
def nodeLine (name : τ → String) (x : Address × Node τ π) : String :=
  Node.indented (x.1.length + 1) (x.2.heading name)

/-- Either both trees are empty, or their bodies have the same shape. -/
def SameShape (name : τ → String) (name' : τ' → String) (t : Tree τ π) (t' : Tree τ' π') : Prop :=
  Option.Rel (Node.SameShape name name') t.body t'.body

/-- The name of no task breaks a line. -/
def Unbroken (name : τ → String) (t : Tree τ π) : Prop :=
  t.Over (fun x ↦ '\n' ∉ (name x).toList) fun _ ↦ True

theorem mem_census (t : Tree τ π) (spot : Address) (n : Node τ π) :
    (spot, n) ∈ t.census ↔ t.at? spot = some n := by
  obtain ⟨_ | body⟩ := t
  · simp [census, at?]
  · exact Node.mem_census body n spot

theorem nodup_census (t : Tree τ π) : (t.census.map Prod.fst).Nodup := by
  obtain ⟨_ | body⟩ := t
  · exact List.nodup_nil
  · exact body.nodup_census

/-- The body's lines stand one level further in than they do in its own text. -/
theorem outline_of_unbroken (h : t.Unbroken name) :
    t.outline name = "[TREE]" :: t.body.elim [] (Node.outline name 1) := by
  obtain ⟨_ | body⟩ := t
  · rfl
  · have hlines := Node.lines_describe (h body rfl)
    show _ :: (Text.lines _).map _ = _ :: body.outline name 1
    rw [hlines, Node.outline_eq_map_census, Node.outline_eq_map_census, List.map_map]
    refine congrArg _ (List.map_congr_left fun x _ ↦ ?_)
    show Node.indented 1 (Node.indented _ _) = _
    rw [Node.indented_indented, Nat.zero_add]

theorem lines_describe (h : t.Unbroken name) :
    Text.lines (t.describe name) = t.outline name := by
  refine Text.lines_unlines ?_
  rw [outline_of_unbroken h, List.forall_mem_cons]
  refine ⟨by decide, ?_⟩
  obtain ⟨_ | body⟩ := t
  · exact List.forall_mem_nil _
  · exact Node.Unbroken.mem_outline (h body rfl)

theorem outline_eq_map_census (h : t.Unbroken name) :
    t.outline name = "[TREE]" :: t.census.map (nodeLine name) := by
  rw [outline_of_unbroken h]
  obtain ⟨_ | body⟩ := t
  · rfl
  · show _ :: body.outline name 1 = _
    rw [Node.outline_eq_map_census]
    simp only [Nat.add_comm 1]
    rfl

/-- The lines of two trees are the same only if the trees have the same shape. Nothing follows the
lines of a body. -/
theorem outline_inj (h : t.Unbroken name) (h' : t'.Unbroken name')
    (heq : t.outline name = t'.outline name') : t.SameShape name name' t' := by
  rw [outline_of_unbroken h, outline_of_unbroken h'] at heq
  have hbodies := (List.cons.inj heq).2
  obtain ⟨body⟩ := t
  obtain ⟨body'⟩ := t'
  cases body with
  | none =>
    cases body' with
    | none => exact .none
    | some m => exact absurd hbodies.symm (m.outline_ne_nil name' 1)
  | some n =>
    cases body' with
    | none => exact absurd hbodies (n.outline_ne_nil name 1)
    | some m =>
      have hends : ∀ depth, Node.EndsBefore depth [] := fun _ _ hline ↦ nomatch hline
      have hwhole : n.outline name 1 ++ [] = m.outline name' 1 ++ [] :=
        congrArg (· ++ []) hbodies
      exact .some (n.decodes m 1 [] [] (hends _) (hends _) hwhole).1

theorem SameShape.outline_eq (hshape : t.SameShape name name' t') :
    t.outline name = t'.outline name' := by
  obtain ⟨body⟩ := t
  obtain ⟨body'⟩ := t'
  cases hshape with
  | none => rfl
  | some hshape =>
    rw [outline, outline, Option.elim_some, Option.elim_some, Node.describe, Node.describe,
      Node.outline_eq_of_sameShape _ hshape]

/-- If no name of a task breaks a line, texts of trees are equal exactly for trees of the same
shape. Besides the heading there is one line in the text for each node of the tree, and it begins
with two blanks for every level down to the node, that of the body included. -/
theorem describe_identifies (h : t.Unbroken name) (h' : t'.Unbroken name') :
    (t.describe name = t'.describe name' ↔ t.SameShape name name' t') ∧
    (t.census.map Prod.fst).Nodup ∧ (∀ spot n, (spot, n) ∈ t.census ↔ t.at? spot = some n) ∧
    t.describe name = Text.unlines ("[TREE]" :: t.census.map (nodeLine name)) ∧
    Text.lines (t.describe name) = "[TREE]" :: t.census.map (nodeLine name) ∧
    ∀ x ∈ t.census, Node.margin (nodeLine name x) = 2 * (x.1.length + 1) := by
  have hlines := outline_eq_map_census h
  refine ⟨⟨fun heq ↦ outline_inj h h' ?_, fun hshape ↦ congrArg Text.unlines hshape.outline_eq⟩,
    nodup_census t, mem_census t, congrArg Text.unlines hlines,
    (lines_describe h).trans hlines, fun x _ ↦ Node.margin_indented name _ x.2⟩
  rw [← lines_describe h, ← lines_describe h', heq]

/-- A task behind a selector that has nothing else to select from, and a second task after it. -/
def inTurn : Tree String Unit := ⟨some (.seq [.sel [.leaf "look"], .leaf "rest"])⟩

/-- The same nodes in the same order, but the second task is an alternative to the first. -/
def orElse : Tree String Unit := ⟨some (.seq [.sel [.leaf "look", .leaf "rest"]])⟩

theorem describe_identifies_inTurn :
    inTurn.Unbroken id ∧ orElse.Unbroken id ∧ inTurn.describe id ≠ orElse.describe id ∧
    Text.lines (inTurn.describe id) =
      ["[TREE]", "  [SEQ]", "    [SEL]", "      [TASK look]", "    [TASK rest]"] := by
  have hlook : (Node.leaf "look" : Node String Unit).Unbroken id := .task (by decide)
  have hrest : (Node.leaf "rest" : Node String Unit).Unbroken id := .task (by decide)
  have hturn : inTurn.Unbroken id := by
    rintro _ ⟨⟩
    exact .sequence (List.forall_mem_cons.mpr
      ⟨.selector (List.forall_mem_singleton.mpr hlook), List.forall_mem_singleton.mpr hrest⟩)
  have helse : orElse.Unbroken id := by
    rintro _ ⟨⟩
    exact .sequence (List.forall_mem_singleton.mpr
      (.selector (List.forall_mem_cons.mpr ⟨hlook, List.forall_mem_singleton.mpr hrest⟩)))
  obtain ⟨hiff, -, -, -, hlines, -⟩ := describe_identifies hturn helse
  refine ⟨hturn, helse, fun heq ↦ ?_, hlines.trans (by decide)⟩
  cases hiff.mp heq with
  | some hbodies =>
    -- One of the two sequences has a second child.
    obtain ⟨-, hchildren⟩ := hbodies
    cases hchildren with
    | cons _ hlater => cases hlater

end Tree

end Delve
