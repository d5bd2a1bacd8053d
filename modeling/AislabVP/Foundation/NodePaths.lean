import AislabVP.Foundation.Runs
import Mathlib.Data.List.Basic
import Mathlib.Data.List.Infix
import Mathlib.Data.List.Nodup
import Mathlib.Data.List.Pairwise

/-!
# Trees of named nodes under construction

A node is known by its path: the names of the nodes down to it.  The name of a node may end in
a unit address behind an `@`, and a name without one also finds a node that has one.  A program
builds a tree by adding nodes and by writing to nodes that are there (`TreeCall`).

A build succeeds if and only if it is *grounded*, every call finds the node that it needs, and
no node that it adds is taken for one that is there (`builds_iff`).  The first is a property
that programs keep when they are put together.  For the second the nodes are sorted by kinds,
and it is enough that the nodes of each kind have different paths (`free_groups_iff`).
-/

namespace AislabVP
namespace Foundation

/-! ## Numerals -/

/-- What `%lx` prints. -/
def hexText (value : Nat) : String := String.ofList (Nat.toDigits 16 value)

theorem digitChar_injective {first second : Nat} (hfirst : first < 16) (hsecond : second < 16)
    (hsame : first.digitChar = second.digitChar) : first = second := by
  have hall : ∀ first < 16, ∀ second < 16,
      Nat.digitChar first = Nat.digitChar second → first = second := by decide
  exact hall first hfirst second hsecond hsame

theorem toDigits_injective {base : Nat} (hlow : 1 < base) (hhigh : base ≤ 16) :
    Function.Injective (Nat.toDigits base) := by
  intro first
  induction first using Nat.strongRecOn with
  | ind first ih =>
      intro second hsame
      have hone : first < base ↔ second < base := by
        have hlengths := congrArg (fun digits => List.length digits ≤ 1) hsame
        simpa [Nat.length_toDigits_le_iff hlow] using hlengths
      by_cases hfirst : first < base
      · have hsecond := hone.mp hfirst
        rw [Nat.toDigits_of_lt_base hfirst, Nat.toDigits_of_lt_base hsecond] at hsame
        exact digitChar_injective (by omega) (by omega) (List.singleton_inj.mp hsame)
      · have hsecond : ¬second < base := fun hless => hfirst (hone.mpr hless)
        have hfirstDigits := Nat.toDigits_of_base_le hlow (show base ≤ first by omega)
        have hsecondDigits := Nat.toDigits_of_base_le hlow (show base ≤ second by omega)
        rw [hfirstDigits, hsecondDigits] at hsame
        obtain ⟨hrest, hlast⟩ := List.append_inj' hsame rfl
        have hquotient := ih (first / base) (Nat.div_lt_self (by omega) hlow) hrest
        have hremainder := digitChar_injective
          (Nat.lt_of_lt_of_le (Nat.mod_lt _ (by omega)) hhigh)
          (Nat.lt_of_lt_of_le (Nat.mod_lt _ (by omega)) hhigh) (List.singleton_inj.mp hlast)
        rw [← Nat.div_add_mod first base, ← Nat.div_add_mod second base, hquotient, hremainder]

theorem hexText_injective : Function.Injective hexText := by
  intro first second hsame
  exact toDigits_injective (by decide) (by decide) (String.ofList_injective hsame)

theorem natText_injective : Function.Injective (fun number : Nat => toString number) := by
  intro first second hsame
  simp only [Nat.toString_eq_ofList_toDigits] at hsame
  exact toDigits_injective (by decide) (by decide) (String.ofList_injective hsame)

theorem natText_ne_minus (number : Nat) (text : String) : number.repr ≠ "-" ++ text := by
  intro hsame
  have hminus : '-' ∈ Nat.toDigits 10 number := by
    rw [← Nat.toList_repr, hsame]
    simp
  exact absurd (Nat.isDigit_of_mem_toDigits (by decide) (Nat.le_refl 10) hminus) (by decide)

/-- `%d` of a number with a sign. -/
theorem intText_injective : Function.Injective (fun number : Int => toString number) := by
  intro first second hsame
  simp only [Int.toString_eq_repr, Int.repr_eq_if] at hsame
  split at hsame
  · split at hsame
    · have hnumbers := natText_injective hsame
      omega
    · exact absurd hsame (natText_ne_minus _ _)
  · split at hsame
    · exact absurd hsame.symm (natText_ne_minus _ _)
    · have hnumbers := natText_injective ((String.append_right_inj _).mp hsame)
      omega

/-! ## Names and paths -/

/-- The names of the nodes from the root down to a node. -/
abbrev NodePath := List String

/-- The name of the node itself. -/
def lastName (path : NodePath) : String := path.getLastD ""

/-- The name has a unit address. -/
def HasUnit (name : String) : Prop := '@' ∈ name.toList

instance (name : String) : Decidable (HasUnit name) := inferInstanceAs (Decidable (_ ∈ _))

/-- The name finds the node: it is its name, or its name without the unit address. -/
def Finds (name node : String) : Prop :=
  node = name ∨ ¬HasUnit name ∧ name.toList ++ ['@'] <+: node.toList

instance (name node : String) : Decidable (Finds name node) :=
  inferInstanceAs (Decidable (_ ∨ _ ∧ _))

/-- A new path is taken for that of a node. -/
def TakenFor (path node : NodePath) : Prop :=
  path.dropLast = node.dropLast ∧ Finds (lastName path) (lastName node)

instance (path node : NodePath) : Decidable (TakenFor path node) :=
  inferInstanceAs (Decidable (_ ∧ _))

/-- What stands before the first digit and before the unit address. -/
def stem (name : String) : List Char :=
  name.toList.takeWhile fun char => char ≠ '@' && !char.isDigit

/-- `%s@%s`. -/
def unitName (base unit : String) : String := base ++ "@" ++ unit

/-- `%s%d`. -/
def numberedName (base : String) (number : Nat) : String := base ++ toString number

theorem unitName_inj {base first second : String} :
    unitName base first = unitName base second ↔ first = second := by
  simp [unitName]

theorem hasUnit_unitName (base unit : String) : HasUnit (unitName base unit) := by
  simp [HasUnit, unitName]

theorem stem_unitName (base unit : String) : stem (unitName base unit) = stem base := by
  rw [stem, unitName, String.toList_append, String.toList_append, stem, List.append_assoc]
  induction base.toList with
  | nil => rfl
  | cons char rest ih =>
      rw [List.cons_append, List.takeWhile_cons, List.takeWhile_cons, ih]

theorem digits_toString (number : Nat) : ∃ digit rest, digit.isDigit = true ∧
    (toString number).toList = digit :: rest := by
  rw [Nat.toString_eq_repr, Nat.toList_repr]
  obtain ⟨digit, rest, hdigits⟩ := List.exists_cons_of_ne_nil (Nat.toDigits_ne_nil (n := number))
  have hmem : digit ∈ Nat.toDigits 10 number := by
    rw [hdigits]
    exact List.mem_cons_self
  exact ⟨digit, rest, Nat.isDigit_of_mem_toDigits (by decide) (Nat.le_refl 10) hmem, hdigits⟩

theorem stem_numberedName (base : String) (number : Nat) :
    stem (numberedName base number) = stem base := by
  obtain ⟨digit, digits, hdigit, hnumber⟩ := digits_toString number
  rw [stem, numberedName, String.toList_append, stem, hnumber]
  induction base.toList with
  | nil => simp [hdigit]
  | cons char rest ih =>
      rw [List.cons_append, List.takeWhile_cons, List.takeWhile_cons, ih]

theorem numberedName_inj {base : String} {first second : Nat} :
    numberedName base first = numberedName base second ↔ first = second := by
  simp only [numberedName, String.append_right_inj]
  exact natText_injective.eq_iff

theorem not_hasUnit_numberedName {base : String} (hbase : ¬HasUnit base) (number : Nat) :
    ¬HasUnit (numberedName base number) := by
  rw [HasUnit, numberedName, String.toList_append, List.mem_append]
  rintro (hleft | hright)
  · exact hbase hleft
  · rw [Nat.toString_eq_repr, Nat.toList_repr] at hright
    exact absurd (Nat.isDigit_of_mem_toDigits (by decide) (Nat.le_refl 10) hright) (by decide)

theorem takeWhile_of_prefix {Item : Type*} {keep : Item → Bool} {front list : List Item}
    {stop : Item} (hstop : keep stop = false) (hfront : front ++ [stop] <+: list) :
    front.takeWhile keep = list.takeWhile keep := by
  obtain ⟨rest, rfl⟩ := hfront
  induction front with
  | nil => simp [hstop]
  | cons item front ih =>
      by_cases hkeep : keep item = true
      · simp only [List.cons_append, List.takeWhile_cons, hkeep, if_true] at ih ⊢
        rw [ih]
      · simp [hkeep]

theorem stem_of_finds {name node : String} (hfinds : Finds name node) : stem name = stem node := by
  rcases hfinds with rfl | ⟨-, hfront⟩
  · rfl
  · exact takeWhile_of_prefix (by rfl) hfront

theorem path_eq {path : NodePath} (hpath : path ≠ []) :
    path.dropLast ++ [lastName path] = path := by
  obtain ⟨front, name, rfl⟩ := List.eq_nil_or_concat path |>.resolve_left hpath
  simp [lastName]

theorem stems_of_takenFor {path node : NodePath} (hpath : path ≠ []) (hnode : node ≠ [])
    (htaken : TakenFor path node) : path.map stem = node.map stem := by
  rw [← path_eq hpath, ← path_eq hnode, htaken.1, List.map_append, List.map_append,
    List.map_singleton, List.map_singleton, stem_of_finds htaken.2]

/-- Where the stems show which names have unit addresses, only a node itself is taken for it. -/
theorem takenFor_iff {path node : NodePath} (hpath : path ≠ []) (hnode : node ≠ [])
    (hunits : path.map stem = node.map stem →
      (HasUnit (lastName path) ↔ HasUnit (lastName node))) :
    TakenFor path node ↔ node = path := by
  constructor
  · intro htaken
    have hsame := hunits (stems_of_takenFor hpath hnode htaken)
    obtain ⟨hparent, hname | ⟨hshort, hfront⟩⟩ := htaken
    · rw [← path_eq hpath, ← path_eq hnode, hparent, hname]
    · exact absurd (hsame.mpr (hfront.subset (by simp))) hshort
  · rintro rfl
    exact ⟨rfl, .inl rfl⟩

/-! ## Builds -/

/-- What a program does to the tree. -/
inductive TreeCall where
  /-- A node is added below the node that the rest of its path names. -/
  | addSubnode (path : NodePath)
  /-- A property of a node is written, or nodes and properties that belong to it. -/
  | write (path : NodePath) (what : String)
  deriving DecidableEq, Repr

/-- The root, or a node that has been added. -/
def Known (tree : List NodePath) (path : NodePath) : Prop := path = [] ∨ path ∈ tree

instance (tree : List NodePath) (path : NodePath) : Decidable (Known tree path) :=
  inferInstanceAs (Decidable (_ ∨ _))

namespace TreeCall

/-- The node that has to be there. -/
def needs : TreeCall → NodePath
  | .addSubnode path => path.dropLast
  | .write path _ => path

/-- The node that is there afterwards. -/
def adds : TreeCall → List NodePath
  | .addSubnode path => [path]
  | .write _ _ => []

/-- One call; it fails when its node is missing, and when the new one is taken for a node that
is there. -/
def step (tree : List NodePath) (call : TreeCall) : Option (List NodePath) :=
  if Known tree call.needs ∧ ∀ path ∈ call.adds, ∀ node ∈ tree, ¬TakenFor path node then
    some (tree ++ call.adds)
  else none

end TreeCall

/-- The nodes that calls add. -/
def addedPaths (calls : List TreeCall) : List NodePath := calls.flatMap TreeCall.adds

/-- A node with what is written to it. -/
def newNode (path : NodePath) (writes : List String) : List TreeCall :=
  .addSubnode path :: writes.map (.write path)

/-- Every call finds the node that it needs. -/
def Grounded : List NodePath → List TreeCall → Prop
  | _, [] => True
  | tree, call :: rest => Known tree call.needs ∧ Grounded (tree ++ call.adds) rest

/-- No node is taken for one that was added before it. -/
def Free (tree : List NodePath) : Prop :=
  tree.Pairwise fun node path => ¬TakenFor path node

/-- The calls succeed, from the root alone. -/
def Builds (calls : List TreeCall) : Prop := ∃ tree, runFrom TreeCall.step [] calls = some tree

section Builds

variable {tree : List NodePath}

@[simp] theorem addedPaths_nil : addedPaths [] = [] := rfl

@[simp] theorem addedPaths_cons (call : TreeCall) (rest : List TreeCall) :
    addedPaths (call :: rest) = call.adds ++ addedPaths rest := rfl

@[simp] theorem addedPaths_append (first second : List TreeCall) :
    addedPaths (first ++ second) = addedPaths first ++ addedPaths second :=
  List.flatMap_append

@[simp] theorem addedPaths_newNode (path : NodePath) (writes : List String) :
    addedPaths (newNode path writes) = [path] := by
  have hwrites : addedPaths (writes.map (.write path)) = [] := by
    simp [addedPaths, TreeCall.adds]
  simp [newNode, hwrites, TreeCall.adds]

theorem addedPaths_flatMap {Item : Type*} (items : List Item) (calls : Item → List TreeCall) :
    addedPaths (items.flatMap calls) = items.flatMap fun item => addedPaths (calls item) :=
  List.flatMap_assoc

theorem runFrom_treeCalls (calls : List TreeCall) (final : List NodePath) :
    runFrom TreeCall.step tree calls = some final ↔
      Grounded tree calls ∧
      (∀ path ∈ addedPaths calls, ∀ node ∈ tree, ¬TakenFor path node) ∧
      Free (addedPaths calls) ∧ tree ++ addedPaths calls = final := by
  induction calls generalizing tree with
  | nil => simp [Grounded, Free]
  | cons call rest ih =>
      rw [runFrom_cons_eq_some]
      constructor
      · rintro ⟨next, hstep, hrest⟩
        rw [TreeCall.step, Option.ite_none_right_eq_some] at hstep
        obtain ⟨⟨hneeds, hfresh⟩, hnext⟩ := hstep
        obtain rfl := Option.some.inj hnext
        obtain ⟨hgrounded, hothers, hfree, hfinal⟩ := ih.mp hrest
        refine ⟨⟨hneeds, hgrounded⟩, ?_, ?_, ?_⟩
        · intro path hpath node hnode
          rcases List.mem_append.mp hpath with hnew | hlater
          · exact hfresh path hnew node hnode
          · exact hothers path hlater node (List.mem_append_left _ hnode)
        · refine List.pairwise_append.mpr ⟨?_, hfree, ?_⟩
          · cases call <;> simp [TreeCall.adds]
          · intro node hnode path hpath
            exact hothers path hpath node (List.mem_append_right _ hnode)
        · rw [addedPaths_cons, ← List.append_assoc, hfinal]
      · rintro ⟨⟨hneeds, hgrounded⟩, hfresh, hfree, hfinal⟩
        obtain ⟨-, hfreeRest, hacross⟩ := List.pairwise_append.mp hfree
        refine ⟨tree ++ call.adds, if_pos ⟨hneeds, fun path hpath =>
          hfresh path (List.mem_append_left _ hpath)⟩, ih.mpr ⟨hgrounded, ?_, hfreeRest, ?_⟩⟩
        · intro path hpath node hnode
          rcases List.mem_append.mp hnode with hold | hnew
          · exact hfresh path (List.mem_append_right _ hpath) node hold
          · exact hacross node hnew path hpath
        · rw [List.append_assoc]
          exact hfinal

theorem builds_iff (calls : List TreeCall) :
    Builds calls ↔ Grounded [] calls ∧ Free (addedPaths calls) := by
  constructor
  · rintro ⟨final, hrun⟩
    obtain ⟨hgrounded, -, hfree, -⟩ := (runFrom_treeCalls calls final).mp hrun
    exact ⟨hgrounded, hfree⟩
  · rintro ⟨hgrounded, hfree⟩
    exact ⟨_, (runFrom_treeCalls calls _).mpr ⟨hgrounded, by simp, hfree, rfl⟩⟩

/-- Paths that all differ are enough, where the stems show which names have unit addresses. -/
theorem free_iff_nodup (hpaths : ∀ path ∈ tree, path ≠ [])
    (hunits : ∀ path ∈ tree, ∀ node ∈ tree, path.map stem = node.map stem →
      (HasUnit (lastName path) ↔ HasUnit (lastName node))) :
    Free tree ↔ tree.Nodup := by
  refine List.Pairwise.iff_of_mem fun {node path} hnode hpath => not_congr ?_
  exact takenFor_iff (hpaths path hpath) (hpaths node hnode) (hunits path hpath node hnode)

/-- The path is one of a kind: but for numbers and unit addresses it has these names. -/
structure OfKind (names : List String) (unit : Bool) (path : NodePath) : Prop where
  path_ne : path ≠ []
  stems : path.map stem = names.map stem
  unit_iff : HasUnit (lastName path) ↔ unit = true

/-- Nodes of one kind. -/
structure NodeGroup where
  names : List String
  unit : Bool
  paths : List NodePath
  ofKind : ∀ path ∈ paths, OfKind names unit path

/-- A node of the kind for every item. -/
def NodeGroup.family {Item : Type*} (names : List String) (unit : Bool) (items : List Item)
    (path : Item → NodePath) (hkind : ∀ item, OfKind names unit (path item)) : NodeGroup where
  names := names
  unit := unit
  paths := items.map path
  ofKind := List.forall_mem_map.mpr fun item _ => hkind item

/-- Between nodes of different kinds there is no confusion, so each kind can be looked at on its
own. -/
theorem free_groups_iff {groups : List NodeGroup}
    (hperm : tree.Perm (groups.flatMap NodeGroup.paths))
    (hkinds : (groups.map fun group => group.names.map stem).Nodup) :
    Free tree ↔ ∀ group ∈ groups, group.paths.Nodup := by
  have hgroup : ∀ path ∈ tree, ∃ group ∈ groups, path ∈ group.paths :=
    fun path hpath => List.mem_flatMap.mp (hperm.mem_iff.mp hpath)
  rw [free_iff_nodup, hperm.nodup_iff, List.nodup_flatMap]
  · refine and_iff_left ?_
    refine (List.pairwise_map.mp hkinds).imp fun {first second} hdiffer path hfirst hsecond => ?_
    exact hdiffer ((first.ofKind path hfirst).stems.symm.trans (second.ofKind path hsecond).stems)
  · intro path hpath
    obtain ⟨group, -, hmem⟩ := hgroup path hpath
    exact (group.ofKind path hmem).path_ne
  · intro path hpath node hnode hsame
    obtain ⟨group, hgroups, hmem⟩ := hgroup path hpath
    obtain ⟨other, hothers, hother⟩ := hgroup node hnode
    rw [(group.ofKind path hmem).stems, (other.ofKind node hother).stems] at hsame
    obtain rfl := List.inj_on_of_nodup_map hkinds hgroups hothers hsame
    exact (group.ofKind path hmem).unit_iff.trans (group.ofKind node hother).unit_iff.symm

/-! ## Grounded programs -/

theorem Known.append {path : NodePath} (hknown : Known tree path) (more : List NodePath) :
    Known (tree ++ more) path :=
  hknown.imp_right (List.mem_append_left _)

theorem Grounded.mono {calls : List TreeCall} {larger : List NodePath}
    (hlarger : ∀ path, Known tree path → Known larger path) (hcalls : Grounded tree calls) :
    Grounded larger calls := by
  induction calls generalizing tree larger with
  | nil => trivial
  | cons call rest ih =>
      obtain ⟨hneeds, hrest⟩ := hcalls
      refine ⟨hlarger _ hneeds, ih ?_ hrest⟩
      rintro path (rfl | hmem)
      · exact .inl rfl
      · rcases List.mem_append.mp hmem with hold | hnew
        · exact (hlarger path (.inr hold)).append _
        · exact .inr (List.mem_append_right _ hnew)

theorem grounded_append (first second : List TreeCall) :
    Grounded tree (first ++ second) ↔
      Grounded tree first ∧ Grounded (tree ++ addedPaths first) second := by
  induction first generalizing tree with
  | nil => simp [Grounded]
  | cons call rest ih =>
      simp only [List.cons_append, Grounded, ih, addedPaths_cons, List.append_assoc, and_assoc]

theorem Grounded.append {first second : List TreeCall} (hfirst : Grounded tree first)
    (hsecond : Grounded tree second) : Grounded tree (first ++ second) :=
  (grounded_append _ _).mpr ⟨hfirst, hsecond.mono fun _ hknown => hknown.append _⟩

theorem grounded_flatMap {Item : Type*} {items : List Item} {calls : Item → List TreeCall}
    (hcalls : ∀ item ∈ items, Grounded tree (calls item)) :
    Grounded tree (items.flatMap calls) := by
  induction items with
  | nil => trivial
  | cons item rest ih =>
      obtain ⟨hitem, hrest⟩ := List.forall_mem_cons.mp hcalls
      exact hitem.append (ih hrest)

theorem grounded_writes {path : NodePath} (hpath : Known tree path) (writes : List String) :
    Grounded tree (writes.map (.write path)) := by
  induction writes with
  | nil => trivial
  | cons what rest ih =>
      refine ⟨hpath, ?_⟩
      rw [TreeCall.adds, List.append_nil]
      exact ih

theorem grounded_newNode {path : NodePath} (hparent : Known tree path.dropLast)
    (writes : List String) : Grounded tree (newNode path writes) :=
  ⟨hparent, grounded_writes (.inr (by simp [TreeCall.adds])) writes⟩

end Builds

end Foundation
end AislabVP
