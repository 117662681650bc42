import DocumentQuery.Proofs.Parameter
import DocumentQuery.Proofs.Selection.Comparisons
import DocumentQuery.Tagged

/-!
# Reading the tagged notation

The tagged notation of a selection tells the selection, but for parameters that share their text.
A bracket shows its tag and where each of its members ends, however deep they are nested: names and
texts are quoted, so nothing that stands in them can be taken for structure.
-/

namespace DocumentQuery
set_option autoImplicit false

open Text

/-! ## Brackets -/

section Brackets

variable {α : Type} {text : α → String} {alike : α → α → Prop} {tag tag' : String}
  {r u : List Char}

/-- Wherever the text of `a` stands in a list, any other reading of it is a value alike to `a`, and
leaves the same rest. -/
def Legible (text : α → String) (alike : α → α → Prop) (a : α) : Prop :=
  ∀ b r u, Closed r → Closed u → (text a).toList ++ r = (text b).toList ++ u → alike a b ∧ r = u

/-- The members of a bracket, each behind a comma, and the bracket's end. -/
def members (texts : List String) : List Char :=
  texts.flatMap (fun m => ',' :: ' ' :: m.toList) ++ [']']

theorem members_cons (m : String) (ms : List String) :
    members (m :: ms) = ',' :: ' ' :: (m.toList ++ members ms) := by
  simp [members]

theorem closed_members (ms : List String) (r : List Char) : Closed (members ms ++ r) := by
  cases ms with
  | nil => simp [members, Closed]
  | cons m rest => simp [members_cons, Closed]

theorem toList_bracket (tag : String) (ms : List String) :
    (bracket tag ms).toList = '[' :: '\x22' :: (tag.toList ++ '\x22' :: members ms) := by
  have hmembers : (String.join (ms.map (", " ++ ·))).toList
      = ms.flatMap fun m => ',' :: ' ' :: m.toList := by
    induction ms with
    | nil => simp
    | cons m rest ih => simp [String.join_cons, ih]
  simp [bracket, members, hmembers]

/-- A bracket tells its tag. -/
theorem bracket_unique {ms ms' : List String} (htag : Bare tag) (htag' : Bare tag')
    (h : (bracket tag ms).toList ++ r = (bracket tag' ms').toList ++ u) :
    tag = tag' ∧ members ms ++ r = members ms' ++ u := by
  simp only [toList_bracket, List.cons_append, List.append_assoc, List.cons_eq_cons,
    true_and] at h
  obtain ⟨heq, hrest⟩ := split_unique (fun c hc => (htag.plain c hc).1)
    (fun c hc => (htag'.plain c hc).1) (by simp) (by simp) h
  exact ⟨String.toList_injective heq, List.tail_eq_of_cons_eq hrest⟩

/-- Brackets of different tags are never taken for each other. -/
theorem bracket_apart {ms ms' : List String} (htag : Bare tag) (htag' : Bare tag')
    (hne : tag ≠ tag') : (bracket tag ms).toList ++ r ≠ (bracket tag' ms').toList ++ u :=
  fun h => hne (bracket_unique htag htag' h).1

/-- A legible first member tells where the next one begins. -/
theorem members_cons_unique {a b : α} {ms ms' : List String} (ha : Legible text alike a)
    (h : members (text a :: ms) ++ r = members (text b :: ms') ++ u) :
    alike a b ∧ members ms ++ r = members ms' ++ u := by
  simp only [members_cons, List.cons_append, List.append_assoc, List.cons_eq_cons, true_and] at h
  exact ha b _ _ (closed_members ms r) (closed_members ms' u) h

theorem members_nil_unique (h : members [] ++ r = members [] ++ u) : r = u :=
  List.append_cancel_left h

/-- Legible members are told one by one, and so is how many there are. -/
theorem members_unique {as bs : List α} (has : ∀ a ∈ as, Legible text alike a)
    (h : members (as.map text) ++ r = members (bs.map text) ++ u) :
    List.Forall₂ alike as bs ∧ r = u := by
  induction as generalizing bs with
  | nil =>
    cases bs with
    | nil => exact ⟨.nil, members_nil_unique h⟩
    | cons b others =>
      rw [List.map_cons, members_cons] at h
      exact absurd (List.head_eq_of_cons_eq h) (by decide)
  | cons a rest ih =>
    cases bs with
    | nil =>
      rw [List.map_cons, members_cons] at h
      exact absurd (List.head_eq_of_cons_eq h) (by decide)
    | cons b others =>
      obtain ⟨hfirst, h⟩ := members_cons_unique (has a (by simp)) h
      obtain ⟨hrest, heq⟩ := ih (fun x hx => has x (List.mem_cons_of_mem a hx)) h
      exact ⟨.cons hfirst hrest, heq⟩

/-- What stands bare or quoted is no bracket. -/
theorem Text.Atomic.ne_bracket {s : List Char} (hs : Atomic s) {ms : List String} :
    s ++ r ≠ (bracket tag ms).toList ++ u := by
  intro h
  rw [toList_bracket] at h
  cases hs with
  | bare hne hbare =>
    obtain ⟨c, rest, rfl⟩ := List.exists_cons_of_ne_nil hne
    have hc := hbare c (by simp)
    rw [List.head_eq_of_cons_eq h] at hc
    exact absurd hc (by decide)
  | quoted _ => exact absurd (List.head_eq_of_cons_eq h) (by decide)

end Brackets

/-! ## Tags -/

/-- Operators differ in their tags. -/
theorem Operator.tag_injective {a b : Operator} (h : a.tag = b.tag) : a = b := by
  cases a <;> cases b <;> first | rfl | exact absurd h (by decide)

theorem Operator.bare_tag (op : Operator) : Bare op.tag := by cases op <;> decide

theorem Operator.tag_ne_and (op : Operator) : op.tag ≠ "AND" := by cases op <;> decide

theorem Operator.tag_ne_or (op : Operator) : op.tag ≠ "OR" := by cases op <;> decide

/-! ## Parts of a selection -/

/-- Parameters of the same text. -/
abbrev Parameter.SameText (p q : Parameter) : Prop := p.tagged = q.tagged

/-- The text of a parameter tells where it ends, and is read as one with the same text. -/
theorem Parameter.legible_tagged (p : Parameter) : Legible tagged SameText p := by
  intro q r u hr hu h
  obtain ⟨heq, hrest⟩ := p.atomic_tagged.unique q.atomic_tagged hr hu h
  exact ⟨String.toList_injective heq, hrest⟩

/-- A quoted text is read back as it is. -/
theorem legible_quoted (s : String) : Legible quoted Eq s := by
  intro t r u hr hu h
  obtain ⟨heq, hrest⟩ := (atomic_quoted s).unique (atomic_quoted t) hr hu h
  exact ⟨quoted_injective (String.toList_injective heq), hrest⟩

/-- A key is read from its text. -/
theorem Key.legible_tagged (key : Key) : Legible tagged Eq key := by
  intro other r u hr hu h
  cases key with
  | id =>
    cases other with
    | id => exact ⟨rfl, List.append_cancel_left h⟩
    | column name => exact absurd h (bracket_apart (by decide) (by decide) (by decide))
  | column name =>
    cases other with
    | id => exact absurd h (bracket_apart (by decide) (by decide) (by decide))
    | column name' =>
      obtain ⟨-, h⟩ := bracket_unique (by decide) (by decide) h
      obtain ⟨hname, h⟩ := members_cons_unique (legible_quoted name) h
      exact ⟨congrArg Key.column hname, members_nil_unique h⟩

/-- A member of a set is read up to values with the same text. -/
theorem Element.legible_tagged (element : Element) :
    Legible tagged (Alike Parameter.SameText) element := by
  intro other r u hr hu h
  cases element with
  | literal p =>
    cases other with
    | literal q =>
      obtain ⟨hsame, hrest⟩ := p.legible_tagged q r u hr hu h
      exact ⟨.literal hsame, hrest⟩
    | predicate op q => exact absurd h p.atomic_tagged.ne_bracket
  | predicate op p =>
    cases other with
    | literal q => exact absurd h.symm q.atomic_tagged.ne_bracket
    | predicate op' q =>
      obtain ⟨htag, h⟩ := bracket_unique op.bare_tag op'.bare_tag h
      obtain ⟨hsame, h⟩ := members_cons_unique p.legible_tagged h
      have hrest := members_nil_unique h
      cases Operator.tag_injective htag
      exact ⟨.predicate hsame, hrest⟩

/-- An operand is read up to values with the same text. -/
theorem Operand.legible_tagged (operand : Operand) :
    Legible tagged (Alike Parameter.SameText) operand := by
  intro other r u hr hu h
  cases operand with
  | value p =>
    cases other with
    | value q =>
      obtain ⟨-, h⟩ := bracket_unique (by decide) (by decide) h
      obtain ⟨hsame, h⟩ := members_cons_unique p.legible_tagged h
      exact ⟨.value hsame, members_nil_unique h⟩
    | values others => exact absurd h (bracket_apart (by decide) (by decide) (by decide))
  | values elements =>
    cases other with
    | value q => exact absurd h (bracket_apart (by decide) (by decide) (by decide))
    | values others =>
      obtain ⟨-, h⟩ := bracket_unique (by decide) (by decide) h
      obtain ⟨halike, hrest⟩ := members_unique (fun element _ => element.legible_tagged) h
      exact ⟨.values halike, hrest⟩

/-- A comparison is read by its tag, its key and its operand. -/
theorem Comparison.legible_tagged (c : Comparison) :
    Legible tagged (Alike Parameter.SameText) c := by
  intro c' r u hr hu h
  obtain ⟨htag, h⟩ := bracket_unique c.op.bare_tag c'.op.bare_tag h
  obtain ⟨hkey, h⟩ := members_cons_unique c.key.legible_tagged h
  obtain ⟨hoperand, h⟩ := members_cons_unique c.operand.legible_tagged h
  exact ⟨⟨Operator.tag_injective htag, hkey, hoperand⟩, members_nil_unique h⟩

namespace Node

theorem taggedEach_eq_map (nodes : List Node) : taggedEach nodes = nodes.map tagged := by
  induction nodes with
  | nil => rfl
  | cons node rest ih => rw [taggedEach, ih, List.map_cons]

/-- By induction on the tree: a group is told by its tag from a comparison and from a group of the
other kind, and its members are told one by one. -/
theorem legible_tagged :
    (∀ node : Node, Legible tagged (Alike Parameter.SameText) node) ∧
      ∀ nodes : List Node, ∀ node ∈ nodes, Legible tagged (Alike Parameter.SameText) node := by
  refine tagged.mutual_induct _ _ ?comparison ?and ?or ?nil ?cons
  case comparison =>
    intro c other r u hr hu h
    cases other with
    | comparison c' =>
      rw [tagged, tagged] at h
      obtain ⟨halike, hrest⟩ := c.legible_tagged c' r u hr hu h
      exact ⟨.comparison halike, hrest⟩
    | and others =>
      rw [tagged, tagged] at h
      exact absurd h (bracket_apart c.op.bare_tag (by decide) c.op.tag_ne_and)
    | or others =>
      rw [tagged, tagged] at h
      exact absurd h (bracket_apart c.op.bare_tag (by decide) c.op.tag_ne_or)
  case and =>
    intro nodes ih other r u hr hu h
    cases other with
    | comparison c =>
      rw [tagged, tagged] at h
      exact absurd h (bracket_apart (by decide) c.op.bare_tag c.op.tag_ne_and.symm)
    | and others =>
      rw [tagged, tagged, taggedEach_eq_map, taggedEach_eq_map] at h
      obtain ⟨-, h⟩ := bracket_unique (by decide) (by decide) h
      obtain ⟨halike, hrest⟩ := members_unique ih h
      exact ⟨.and halike, hrest⟩
    | or others =>
      rw [tagged, tagged] at h
      exact absurd h (bracket_apart (by decide) (by decide) (by decide))
  case or =>
    intro nodes ih other r u hr hu h
    cases other with
    | comparison c =>
      rw [tagged, tagged] at h
      exact absurd h (bracket_apart (by decide) c.op.bare_tag c.op.tag_ne_or.symm)
    | and others =>
      rw [tagged, tagged] at h
      exact absurd h (bracket_apart (by decide) (by decide) (by decide))
    | or others =>
      rw [tagged, tagged, taggedEach_eq_map, taggedEach_eq_map] at h
      obtain ⟨-, h⟩ := bracket_unique (by decide) (by decide) h
      obtain ⟨halike, hrest⟩ := members_unique ih h
      exact ⟨.or halike, hrest⟩
  case nil =>
    intro node hmem
    cases hmem
  case cons =>
    intro child rest ihChild ihRest node hmem
    rcases List.mem_cons.1 hmem with rfl | hmem
    · exact ihChild
    · exact ihRest node hmem

/-- The notation of a tree is a bracket. -/
theorem exists_bracket (node : Node) : ∃ tag ms, node.tagged = bracket tag ms := by
  cases node with
  | comparison c => exact ⟨_, _, by rw [tagged, Comparison.tagged]⟩
  | and nodes => exact ⟨_, _, tagged.eq_2 nodes⟩
  | or nodes => exact ⟨_, _, tagged.eq_3 nodes⟩

end Node

/-- The notation of a selection tells its tree, but for parameters that share their text. -/
theorem Selection.alike_of_tagged {a b : Selection} (h : a.tagged = b.tagged) :
    a.Alike Parameter.SameText b := by
  have hlist : a.tagged.toList ++ [] = b.tagged.toList ++ [] := by rw [h]
  have hnull : ∀ node : Node, members ["null"] ++ [] ≠ members [node.tagged] ++ [] := by
    intro node heq
    obtain ⟨tag, ms, hnode⟩ := node.exists_bracket
    simp only [members_cons, hnode, List.cons_append, List.append_assoc, List.cons_eq_cons,
      true_and] at heq
    exact absurd heq Parameter.null.atomic_tagged.ne_bracket
  cases a with
  | everything =>
    cases b with
    | everything => exact .everything
    | matching node =>
      exact absurd (bracket_unique (by decide) (by decide) hlist).2 (hnull node)
  | matching node =>
    cases b with
    | everything =>
      exact absurd (bracket_unique (by decide) (by decide) hlist).2.symm (hnull node)
    | matching other =>
      obtain ⟨-, hmembers⟩ := bracket_unique (by decide) (by decide) hlist
      obtain ⟨halike, -⟩ := members_cons_unique (Node.legible_tagged.1 node) hmembers
      exact .matching halike

/-! ## Selections alike

The notation tells no more than that: selections alike have the same. And where the parameters are
exact, being alike is being equal. -/

theorem Element.Alike.tagged_eq {element other : Element}
    (h : element.Alike Parameter.SameText other) : element.tagged = other.tagged := by
  cases h with
  | literal hsame => exact hsame
  | predicate hsame => rw [tagged, tagged, hsame]

theorem Operand.Alike.tagged_eq {operand other : Operand}
    (h : operand.Alike Parameter.SameText other) : operand.tagged = other.tagged := by
  cases h with
  | value hsame => rw [tagged, tagged, hsame]
  | values halike =>
    rw [tagged, tagged, map_eq_of_forall₂ (halike.imp fun _ _ hmember => hmember.tagged_eq.symm)]

theorem Comparison.tagged_eq {c c' : Comparison} (h : c.Alike Parameter.SameText c') :
    c.tagged = c'.tagged := by
  rw [tagged, tagged, h.op, h.key, h.operand.tagged_eq]

/-- The parameter of a member of a set. -/
def Element.parameter : Element → Parameter
  | .literal p => p
  | .predicate _ p => p

def Operand.allParameters : Operand → List Parameter
  | .value p => [p]
  | .values elements => elements.map Element.parameter

/-- All parameters of a selection, those included that no placeholder is bound to. -/
def Selection.allParameters (sel : Selection) : List Parameter :=
  sel.comparisons.flatMap fun c => c.operand.allParameters

/-- Members alike with exact values are equal. -/
theorem Element.Alike.eq {element other : Element} (h : element.Alike Parameter.SameText other)
    (hleft : element.parameter.isExact = true) (hright : other.parameter.isExact = true) :
    element = other := by
  cases h with
  | literal hsame => exact congrArg Element.literal (Parameter.tagged_injective hleft hright hsame)
  | @predicate op p q hsame =>
    exact congrArg (Element.predicate op) (Parameter.tagged_injective hleft hright hsame)

/-- Operands of exact parameters are equal if they are alike. -/
theorem Operand.Alike.eq {operand other : Operand} (h : operand.Alike Parameter.SameText other)
    (hleft : ∀ p ∈ operand.allParameters, p.isExact = true)
    (hright : ∀ p ∈ other.allParameters, p.isExact = true) : operand = other := by
  cases h with
  | @value p q hsame =>
    rw [allParameters, List.forall_mem_singleton] at hleft hright
    rw [Parameter.tagged_injective hleft hright hsame]
  | @values elements others halike =>
    rw [allParameters, List.forall_mem_map] at hleft hright
    apply congrArg Operand.values
    induction halike with
    | nil => rfl
    | cons hmember _ ih =>
      rw [List.forall_mem_cons] at hleft hright
      rw [hmember.eq hleft.1 hright.1, ih hleft.2 hright.2]

/-- Comparisons alike with exact values are equal. -/
theorem Comparison.eq_of_alike {c c' : Comparison} (h : c.Alike Parameter.SameText c')
    (hleft : ∀ p ∈ c.operand.allParameters, p.isExact = true)
    (hright : ∀ p ∈ c'.operand.allParameters, p.isExact = true) : c = c' := by
  have hoperand := h.operand.eq hleft hright
  have hop := h.op
  have hkey := h.key
  cases c
  cases c'
  congr

namespace Node

variable {r : Comparison → Comparison → Prop}

/-- Trees of the same form have the same notation if their comparisons have. -/
theorem tagged_eq_of_rel (hr : ∀ c c', r c c' → c.tagged = c'.tagged) :
    (∀ node other : Node, node.Rel r other → node.tagged = other.tagged) ∧
      ∀ nodes others : List Node, List.Forall₂ (Rel r) nodes others →
        taggedEach nodes = taggedEach others := by
  refine tagged.mutual_induct _ _ ?comparison ?and ?or ?nil ?cons
  case comparison =>
    rintro c _ ⟨hrel⟩
    rw [tagged, tagged, hr _ _ hrel]
  case and =>
    rintro nodes ih _ (_ | hrel)
    rw [tagged, tagged, ih _ hrel]
  case or =>
    rintro nodes ih _ (_ | _ | hrel)
    rw [tagged, tagged, ih _ hrel]
  case nil =>
    rintro _ ⟨⟩
    rfl
  case cons =>
    rintro child rest ihChild ihRest _ (_ | ⟨hchild, hrest⟩)
    rw [taggedEach, taggedEach, ihChild _ hchild, ihRest _ hrest]

/-- Trees of the same form are equal if their comparisons are. -/
theorem eq_of_rel :
    (∀ node other : Node, node.Rel r other →
      (∀ c ∈ node.comparisons, ∀ c' ∈ other.comparisons, r c c' → c = c') → node = other) ∧
    ∀ nodes others : List Node, List.Forall₂ (Rel r) nodes others →
      (∀ c ∈ comparisonsOfAll nodes, ∀ c' ∈ comparisonsOfAll others, r c c' → c = c') →
      nodes = others := by
  refine comparisons.mutual_induct _ _ ?comparison ?and ?or ?nil ?cons
  case comparison =>
    rintro c _ ⟨hrel⟩ heq
    rw [heq c (by simp [comparisons]) _ (by simp [comparisons]) hrel]
  case and =>
    rintro nodes ih _ (_ | hrel) heq
    rw [comparisons, comparisons] at heq
    rw [ih _ hrel heq]
  case or =>
    rintro nodes ih _ (_ | _ | hrel) heq
    rw [comparisons, comparisons] at heq
    rw [ih _ hrel heq]
  case nil =>
    rintro _ ⟨⟩ _
    rfl
  case cons =>
    rintro child rest ihChild ihRest _ (_ | ⟨hchild, hrest⟩) heq
    rw [comparisonsOfAll, comparisonsOfAll] at heq
    rw [ihChild _ hchild fun c hc c' hc' => heq c (by simp [hc]) c' (by simp [hc']),
      ihRest _ hrest fun c hc c' hc' => heq c (by simp [hc]) c' (by simp [hc'])]

end Node

namespace Selection

/-- Selections alike have the same text. -/
theorem tagged_eq_of_alike {a b : Selection} (h : a.Alike Parameter.SameText b) :
    a.tagged = b.tagged := by
  cases h with
  | everything => rfl
  | matching hnode =>
    rw [tagged, tagged, (Node.tagged_eq_of_rel fun _ _ => Comparison.tagged_eq).1 _ _ hnode]

/-- Selections of exact parameters are equal if they are alike. -/
theorem eq_of_alike {a b : Selection} (h : a.Alike Parameter.SameText b)
    (hleft : ∀ p ∈ a.allParameters, p.isExact = true)
    (hright : ∀ p ∈ b.allParameters, p.isExact = true) : a = b := by
  cases h with
  | everything => rfl
  | @matching node other hnode =>
    rw [allParameters, List.forall_mem_flatMap] at hleft hright
    rw [Node.eq_of_rel.1 node other hnode]
    exact fun c hc c' hc' halike => Comparison.eq_of_alike halike (hleft c hc) (hright c' hc')

/-- The tagged notation is unambiguous. Two selections have the same notation exactly when both
select everything or their trees have the same form, with the same operators and keys in the same
places, the same form of operand with as many members of the same kinds, and parameters that
pairwise have the same text. So they are the same selection whenever all of their parameters are
nulls, truth values, integers and texts. -/
theorem tagged_unambiguous (a b : Selection) :
    (a.tagged = b.tagged ↔ a.Alike (fun p q => p.tagged = q.tagged) b) ∧
      ((∀ p ∈ a.allParameters, p.isExact = true) → (∀ p ∈ b.allParameters, p.isExact = true) →
        a.tagged = b.tagged → a = b) :=
  ⟨⟨alike_of_tagged, tagged_eq_of_alike⟩,
    fun hleft hright h => eq_of_alike (alike_of_tagged h) hleft hright⟩

/-- A set behind a column whose name imitates a key and a bracket. -/
def disguised (p : Parameter) : Selection :=
  .matching (.and [.comparison
    ⟨.oneOf, .column "a\", [\"ID", .values [.predicate .gt p, .literal .null]⟩])

/-- A byte and the text that spells it make two selections of the same notation, which are alike
and no more; of exact parameters there is one selection for each notation. -/
theorem disguised_unambiguous :
    (disguised (.blob [10])).Alike (fun p q => p.tagged = q.tagged) (disguised (.text "0x0a")) ∧
      disguised (.blob [10]) ≠ disguised (.text "0x0a") ∧
      disguised (.text "x") = conjunction [comparing
        ⟨.oneOf, .column "a\", [\"ID", .values [.predicate .gt (.text "x"), .literal .null]⟩] := by
  have hbyte : (Parameter.blob [10]).tagged = (Parameter.text "0x0a").tagged := by decide +kernel
  have hsame : (disguised (.blob [10])).tagged = (disguised (.text "0x0a")).tagged := by
    simp only [disguised, tagged, Node.tagged, Node.taggedEach, Comparison.tagged, Operand.tagged,
      List.map_cons, Element.tagged, hbyte]
  refine ⟨(tagged_unambiguous _ _).1.1 hsame, ?_, ?_⟩
  · intro h
    simp [disguised] at h
  · exact (tagged_unambiguous _ _).2 (by decide) (by decide) rfl

end Selection

end DocumentQuery
