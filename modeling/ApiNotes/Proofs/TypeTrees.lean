import ApiNotes.Proofs.Declarations
import ApiNotes.Proofs.References

/-!
# Nested type names

A `TypeTree` is a qualified name with types in brackets after it, as a generic type is written. What
its text comes to in a longer text: the names that are found in it are those of its nodes, from left to
right (`TypeTree.qualifiedNames_text`), a name that is in none of them is not in it, and each node is
where the search for its name ends, after as many brackets as the node is deep (`TypeTree.sits`).
-/

namespace ApiNotes

open Text

/-- A type and the package that it is taken from. -/
structure TypeName where
  package : Text
  type : Text
  packageWord : IsWord package
  typeWord : IsWord type

def TypeName.text (name : TypeName) : Text := name.package ++ '.' :: name.type

/-- A type name with its arguments. -/
inductive TypeTree where
  | node (name : TypeName) (arguments : List TypeTree)

namespace TypeTree

/-- What ends an argument that `more` arguments follow. -/
def endMark (more : List TypeTree) : Char := if more.isEmpty then ']' else ','

mutual

/-- A tree as it is written: `package.Type`, or `package.Type[first,second]`. -/
def text : TypeTree → Text
  | .node name [] => name.text
  | .node name arguments => name.text ++ '[' :: listText arguments

/-- Arguments with the mark after each. -/
def listText : List TypeTree → Text
  | [] => []
  | argument :: more => argument.text ++ endMark more :: listText more

end

mutual

def names : TypeTree → List TypeName
  | .node name arguments => name :: namesOf arguments

def namesOf : List TypeTree → List TypeName
  | [] => []
  | argument :: more => argument.names ++ namesOf more

end

/-- A name in a tree, the column at which it is written and how many types it is an argument within. -/
structure Node where
  name : TypeName
  place : Nat
  depth : Nat

mutual

/-- The nodes of a tree that is written from column `place` on, each before its arguments. -/
def nodes (place depth : Nat) : TypeTree → List Node
  | .node name arguments =>
    ⟨name, place, depth⟩ :: nodesOf (place + name.text.length + 1) (depth + 1) arguments

/-- The nodes of trees that are written one after another with a mark between each two. -/
def nodesOf (place depth : Nat) : List TypeTree → List Node
  | [] => []
  | argument :: more =>
    argument.nodes place depth ++ nodesOf (place + argument.text.length + 1) depth more

end

/-! ## Names and marks -/

/-- A character that ends names. -/
def IsMark (c : Char) : Prop := isWord c = false ∧ c ≠ '.'

instance (c : Char) : Decidable (IsMark c) := inferInstanceAs (Decidable (_ ∧ _))

theorem isMark_endMark (more : List TypeTree) : IsMark (endMark more) := by
  cases more with
  | nil => exact ⟨by decide, by decide⟩
  | cons next more => exact ⟨show isWord ',' = false by decide, show ',' ≠ '.' by decide⟩

theorem not_mem_of_isMark {c : Char} (mark : IsMark c) (name : TypeName) : c ∉ name.text := by
  intro member
  have word : ∀ {text : Text}, IsWord text → c ∉ text := by
    intro text valid inside
    have other := mark.1
    rw [valid.2 c inside] at other
    cases other
  rcases List.mem_append.mp member with inside | inside
  · exact word name.packageWord inside
  · rcases List.mem_cons.mp inside with dot | inside
    · exact mark.2 dot
    · exact word name.typeWord inside

theorem text_ne_nil (name : TypeName) : name.text ≠ [] := by
  simp [TypeName.text]

theorem text_node_cons (name : TypeName) (first : TypeTree) (more : List TypeTree) :
    text (.node name (first :: more)) = name.text ++ '[' :: listText (first :: more) := rfl

/-! ## The names in a text -/

mutual

/-- The names in the text of a tree are those of its nodes. -/
theorem qualifiedNames_text (tree : TypeTree) (rest : Text)
    (stops : ∀ c ∈ rest.head?, isWord c = false) :
    qualifiedNames (tree.text ++ rest) = tree.names.map (·.text) ++ qualifiedNames rest := by
  obtain ⟨name, arguments⟩ := tree
  have listed := qualifiedNames_listText arguments rest
  cases arguments with
  | nil =>
    rw [text, TypeName.text, List.append_assoc]
    exact qualifiedNames_name name.packageWord name.typeWord stops
  | cons first more =>
    have opened : ∀ c ∈ ('[' :: (listText (first :: more) ++ rest)).head?, isWord c = false := by
      rintro c ⟨rfl⟩
      decide
    have named := qualifiedNames_name name.packageWord name.typeWord opened
    rw [qualifiedNames_cons (by decide), listed] at named
    simpa [text_node_cons, names, TypeName.text] using named

theorem qualifiedNames_listText (trees : List TypeTree) (rest : Text) :
    qualifiedNames (listText trees ++ rest) =
      (namesOf trees).map (·.text) ++ qualifiedNames rest := by
  match trees with
  | [] => rfl
  | argument :: more =>
    have marked := (isMark_endMark more).1
    have first := qualifiedNames_text argument (endMark more :: (listText more ++ rest))
      (by rintro c ⟨rfl⟩; exact marked)
    rw [qualifiedNames_cons marked, qualifiedNames_listText more rest] at first
    simpa [listText, namesOf] using first

end

/-! ## Where the names are -/

mutual

/-- A name that is in none of the names of a tree is not in its text. -/
theorem not_isInfix_text {other : TypeName} (tree : TypeTree)
    (fresh : ∀ name ∈ tree.names, ¬other.text <:+: name.text) : ¬other.text <:+: tree.text := by
  obtain ⟨name, arguments⟩ := tree
  have own := fresh name (by simp [names])
  have listed := not_isInfix_listText arguments fun name inside => fresh name (by simp [names, inside])
  cases arguments with
  | nil => exact own
  | cons first more =>
    rw [text_node_cons, isInfix_append_cons (not_mem_of_isMark (by decide) other)]
    exact not_or.mpr ⟨own, listed⟩

theorem not_isInfix_listText {other : TypeName} (trees : List TypeTree)
    (fresh : ∀ name ∈ namesOf trees, ¬other.text <:+: name.text) :
    ¬other.text <:+: listText trees := by
  match trees with
  | [] => simp [listText, text_ne_nil]
  | argument :: more =>
    have first := not_isInfix_text argument fun name inside => fresh name (by simp [namesOf, inside])
    have later := not_isInfix_listText more fun name inside => fresh name (by simp [namesOf, inside])
    rw [listText, isInfix_append_cons (not_mem_of_isMark (isMark_endMark more) other)]
    exact not_or.mpr ⟨first, later⟩

end

mutual

/-- The brackets of a tree are closed. -/
theorem count_text (tree : TypeTree) : tree.text.count '[' = tree.text.count ']' := by
  obtain ⟨name, arguments⟩ := tree
  have opening := List.count_eq_zero.mpr (not_mem_of_isMark (c := '[') (by decide) name)
  have closing := List.count_eq_zero.mpr (not_mem_of_isMark (c := ']') (by decide) name)
  have listed := count_listText arguments
  cases arguments with
  | nil => rw [text, opening, closing]
  | cons first more =>
    have balanced := listed (by simp)
    simp [text_node_cons, opening, closing, balanced]

theorem count_listText (trees : List TypeTree) (some : trees ≠ []) :
    (listText trees).count ']' = (listText trees).count '[' + 1 := by
  match trees with
  | [argument] =>
    have first := count_text argument
    simp [listText, endMark, first]
  | argument :: next :: more =>
    have first := count_text argument
    have later := count_listText (next :: more) (by simp)
    rw [listText]
    simp [endMark, first, later]
    omega

end

/-- What stands before a type that is an argument within `depth` others. -/
structure Opens (lead : Text) (depth : Nat) : Prop where
  ends : ∃ front mark, lead = front ++ [mark] ∧ IsMark mark
  level : lead.count '[' = lead.count ']' + depth

namespace Opens

variable {lead : Text} {depth : Nat} {name other : TypeName}

/-- The text before the first argument. -/
theorem argument (opens : Opens lead depth) (name : TypeName) :
    Opens (lead ++ name.text ++ ['[']) (depth + 1) where
  ends := ⟨_, _, rfl, by decide⟩
  level := by
    have opening := List.count_eq_zero.mpr (not_mem_of_isMark (c := '[') (by decide) name)
    have closing := List.count_eq_zero.mpr (not_mem_of_isMark (c := ']') (by decide) name)
    have level := opens.level
    simp [opening, closing]
    omega

/-- The text before the argument after one. -/
theorem next (opens : Opens lead depth) (tree : TypeTree) : Opens (lead ++ tree.text ++ [',']) depth where
  ends := ⟨_, _, rfl, by decide⟩
  level := by
    have level := opens.level
    have balanced := count_text tree
    simp
    omega

/-- A name that is in neither of two texts is not in one after the other. -/
theorem not_isInfix (opens : Opens lead depth) {text : Text} {mark : Char} (marked : IsMark mark)
    (before : ¬other.text <:+: lead) (inside : ¬other.text <:+: text) :
    ¬other.text <:+: lead ++ text ++ [mark] := by
  obtain ⟨front, first, rfl, firstMark⟩ := opens.ends
  rw [isInfix_append_cons (not_mem_of_isMark firstMark other)] at before
  rw [isInfix_append_cons (not_mem_of_isMark marked other), List.append_assoc, List.singleton_append,
    isInfix_append_cons (not_mem_of_isMark firstMark other)]
  simp only [not_or] at before ⊢
  exact ⟨⟨before.1, inside⟩, before.2⟩

end Opens

/-- A node is where its name is first found, after as many open brackets as the node is deep. -/
structure Node.SitsOn (node : Node) (line : Text) : Prop where
  found : find? node.name.text line = some node.place
  level : nestingLevel line node.place = node.depth

theorem nestingLevel_append (lead rest : Text) :
    nestingLevel (lead ++ rest) lead.length = lead.count '[' - lead.count ']' := by
  have column : ¬(lead.length : Int) < 0 := by omega
  simp [nestingLevel, before, column]

theorem Opens.sitsOn {lead : Text} {depth : Nat} (opens : Opens lead depth) {name : TypeName}
    (fresh : ¬name.text <:+: lead) (rest : Text) :
    Node.SitsOn ⟨name, lead.length, depth⟩ (lead ++ (name.text ++ rest)) := by
  have level := opens.level
  obtain ⟨front, mark, rfl, marked⟩ := opens.ends
  constructor
  · have absent := not_mem_of_isMark marked name
    rw [isInfix_append_cons absent] at fresh
    have found := find?_append (text_ne_nil name) absent (fun inside => fresh (.inl inside)) rest
    simpa using found
  · rw [nestingLevel_append, level]
    exact Nat.add_sub_cancel_left _ _

mutual

/-- The nodes of a tree in a line sit where they are written, if no name is in the text before the tree or
in the name of a node before it. -/
theorem sitsOn_nodes (tree : TypeTree) {lead : Text} {depth : Nat} (opens : Opens lead depth)
    (fresh : ∀ name ∈ tree.names, ¬name.text <:+: lead)
    (apart : tree.names.Pairwise fun earlier later => ¬later.text <:+: earlier.text) (rest : Text) :
    ∀ node ∈ tree.nodes lead.length depth, node.SitsOn (lead ++ (tree.text ++ rest)) := by
  obtain ⟨name, arguments⟩ := tree
  obtain ⟨own, others⟩ := List.pairwise_cons.mp apart
  have inner := sitsOn_nodesOf arguments (opens.argument name)
    (fun other inside => opens.not_isInfix (by decide) (fresh other (by simp [names, inside]))
      (own other inside)) others rest
  cases arguments with
  | nil =>
    intro node inside
    obtain rfl : node = ⟨name, lead.length, depth⟩ := by simpa [nodes, nodesOf] using inside
    exact opens.sitsOn (fresh name (by simp [names])) rest
  | cons first more =>
    intro node inside
    rw [text_node_cons]
    rcases List.mem_cons.mp inside with rfl | inside
    · have here := opens.sitsOn (fresh name (by simp [names])) ('[' :: (listText (first :: more) ++ rest))
      simpa using here
    · have there := inner node (by simpa [Nat.add_assoc] using inside)
      simpa using there

theorem sitsOn_nodesOf (trees : List TypeTree) {lead : Text} {depth : Nat} (opens : Opens lead depth)
    (fresh : ∀ name ∈ namesOf trees, ¬name.text <:+: lead)
    (apart : (namesOf trees).Pairwise fun earlier later => ¬later.text <:+: earlier.text) (rest : Text) :
    ∀ node ∈ nodesOf lead.length depth trees, node.SitsOn (lead ++ (listText trees ++ rest)) := by
  match trees with
  | [] => simp [nodesOf]
  | argument :: more =>
    obtain ⟨early, late, across⟩ := List.pairwise_append.mp apart
    have first := sitsOn_nodes argument opens (fun name inside => fresh name (by simp [namesOf, inside]))
      early (endMark more :: (listText more ++ rest))
    intro node inside
    rcases List.mem_append.mp inside with inside | inside
    · have here := first node inside
      simpa [listText] using here
    · -- There is another argument, so the mark is a comma.
      cases more with
      | nil => simp [nodesOf] at inside
      | cons next more =>
        have later := sitsOn_nodesOf (next :: more) (opens.next argument)
          (fun name member => opens.not_isInfix (by decide) (fresh name (List.mem_append_right _ member))
            (not_isInfix_text argument fun other before => across other before name member)) late rest
        have there := later node (by simpa [Nat.add_assoc] using inside)
        simpa [listText, endMark] using there

end

/-! ## The columns of the nodes -/

namespace Node

def stop (node : Node) : Nat := node.place + node.name.text.length

/-- Nodes that are written one after another, from column `start` up to, not including, `stop`. -/
structure Ascend (nodes : List Node) (start stop : Nat) : Prop where
  within : ∀ node ∈ nodes, start ≤ node.place ∧ node.stop ≤ stop
  apart : nodes.Pairwise fun a b => a.stop ≤ b.place

theorem Ascend.append {nodes others : List Node} {start middle next stop : Nat}
    (ascend : Ascend nodes start middle) (later : Ascend others next stop) (first : start ≤ next)
    (between : middle ≤ next) (last : middle ≤ stop) : Ascend (nodes ++ others) start stop where
  within node inside := by
    rcases List.mem_append.mp inside with inside | inside
    · have := ascend.within node inside
      omega
    · have := later.within node inside
      omega
  apart := by
    refine List.pairwise_append.mpr ⟨ascend.apart, later.apart, fun a first b second => ?_⟩
    have := ascend.within a first
    have := later.within b second
    omega

end Node

mutual

/-- The nodes of a tree are written one after another, within its text. -/
theorem nodes_ascend (tree : TypeTree) (place depth : Nat) :
    Node.Ascend (tree.nodes place depth) place (place + tree.text.length) := by
  obtain ⟨name, arguments⟩ := tree
  have own : Node.Ascend [⟨name, place, depth⟩] place (place + name.text.length) :=
    ⟨by simp [Node.stop], List.pairwise_singleton _ _⟩
  have inner := nodesOf_ascend arguments (place + name.text.length + 1) (depth + 1)
  cases arguments with
  | nil => exact own
  | cons first more =>
    have long : (text (.node name (first :: more))).length =
        name.text.length + 1 + (listText (first :: more)).length := by
      simp [text_node_cons]
      omega
    rw [long, ← Nat.add_assoc, ← Nat.add_assoc]
    exact own.append inner (by omega) (by omega) (by omega)

theorem nodesOf_ascend (trees : List TypeTree) (place depth : Nat) :
    Node.Ascend (nodesOf place depth trees) place (place + (listText trees).length) := by
  match trees with
  | [] => exact ⟨by simp [nodesOf], List.Pairwise.nil⟩
  | argument :: more =>
    have first := nodes_ascend argument place depth
    have later := nodesOf_ascend more (place + argument.text.length + 1) depth
    have long : (listText (argument :: more)).length =
        argument.text.length + 1 + (listText more).length := by
      simp [listText]
      omega
    rw [long, ← Nat.add_assoc, ← Nat.add_assoc]
    exact first.append later (by omega) (by omega) (by omega)

end

/-- A column belongs to one node at most. -/
theorem Node.Ascend.eq_of_covers {nodes : List Node} {start stop : Nat} (ascend : Node.Ascend nodes start stop)
    {a b : Node} (first : a ∈ nodes) (second : b ∈ nodes) {column : Int}
    (here : a.place ≤ column ∧ column < a.stop) (there : b.place ≤ column ∧ column < b.stop) : a = b := by
  obtain ⟨i, inside, rfl⟩ := List.getElem_of_mem first
  obtain ⟨j, within, rfl⟩ := List.getElem_of_mem second
  have order := List.pairwise_iff_getElem.mp ascend.apart
  rcases Nat.lt_trichotomy i j with less | rfl | less
  · have := order i j inside within less
    omega
  · rfl
  · have := order j i within inside less
    omega

/-! ## Their references -/

mutual

theorem map_name_nodes (tree : TypeTree) (place depth : Nat) :
    (tree.nodes place depth).map (·.name) = tree.names := by
  obtain ⟨name, arguments⟩ := tree
  rw [nodes, names, List.map_cons, map_name_nodesOf]

theorem map_name_nodesOf (trees : List TypeTree) (place depth : Nat) :
    (nodesOf place depth trees).map (·.name) = namesOf trees := by
  match trees with
  | [] => rfl
  | argument :: more => rw [nodesOf, namesOf, List.map_append, map_name_nodes, map_name_nodesOf]

end

/-- The reference that a node is read as. -/
def Node.reference (origin : Origin) (number : Int) (node : Node) : Reference :=
  { line := number, start := node.place, stop := node.stop, name := node.name.text,
    level := node.depth, origin := origin }

/-- The references to the names of a tree in a line are its nodes. -/
theorem referencesIn_eq_map {tree : TypeTree} {lead region : Text} (opens : Opens lead 0)
    (undotted : '.' ∉ lead)
    (apart : tree.names.Pairwise fun earlier later => ¬later.text <:+: earlier.text)
    (named : qualifiedNames region = tree.names.map (·.text)) (rest : Text) (origin : Origin)
    (number : Int) :
    referencesIn origin (lead ++ (tree.text ++ rest)) number region =
      (tree.nodes lead.length 0).map (·.reference origin number) := by
  have fresh : ∀ name ∈ tree.names, ¬name.text <:+: lead := fun name _ inside =>
    undotted (inside.subset (by simp [TypeName.text]))
  have sits := sitsOn_nodes tree opens fresh apart rest
  have listed : tree.names.map (·.text) = (tree.nodes lead.length 0).map (·.name.text) := by
    rw [← map_name_nodes tree lead.length 0, List.map_map]
    rfl
  rw [referencesIn, named, listed, List.filterMap_map, ← List.filterMap_eq_map]
  refine List.filterMap_congr fun node inside => ?_
  obtain ⟨found, level⟩ := sits node inside
  simp [found, level, Node.reference, Node.stop]

end TypeTree

end ApiNotes
