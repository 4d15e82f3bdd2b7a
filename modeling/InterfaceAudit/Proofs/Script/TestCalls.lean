import InterfaceAudit.Proofs.Script.ClassSearch
import InterfaceAudit.Script.Tests
import Mathlib.Order.Lattice.Nat

/-!
Groups and cases of a test source.
The calls of a tree are taken in the order of its traversal: every case is kept, a group is kept
where it comes first, and what a phrase declares is what its parts declare one after another.
-/

namespace InterfaceAudit

namespace Script

/-! ### Trees over a text -/

/-- Points are compared in characters and in rows. -/
instance : Preorder Point := Preorder.lift fun point => (point.offset, point.row)

/-- A node spans its children, which stand in their order and do not overlap. If they overlapped, a
part of one child could start behind the start of the next. -/
structure Node.Laid (node : Node) : Prop where
  forward : node.span.start ≤ node.span.stop
  inside : ∀ child ∈ node.children,
    node.span.start ≤ child.span.start ∧ child.span.stop ≤ node.span.stop
  ordered : node.children.Pairwise fun first second => first.span.stop ≤ second.span.start

instance (first second : Point) : Decidable (first ≤ second) :=
  inferInstanceAs (Decidable (first.offset ≤ second.offset ∧ first.row ≤ second.row))

instance (node : Node) : Decidable node.Laid :=
  decidable_of_iff
    (node.span.start ≤ node.span.stop ∧
      (∀ child ∈ node.children,
        node.span.start ≤ child.span.start ∧ child.span.stop ≤ node.span.stop) ∧
      node.children.Pairwise fun first second => first.span.stop ≤ second.span.start)
    ⟨fun ⟨forward, inside, ordered⟩ => ⟨forward, inside, ordered⟩,
      fun ⟨forward, inside, ordered⟩ => ⟨forward, inside, ordered⟩⟩

/-- No node starts before the nodes in front of it. -/
def Node.Ascending (nodes : List Node) : Prop :=
  nodes.Pairwise fun first second => first.span.start ≤ second.span.start

def Node.StartsIn (span : Span) (node : Node) : Prop :=
  span.start ≤ node.span.start ∧ node.span.start ≤ span.stop

mutual

/-- The traversal of a tree meets its nodes in the order in which they start. -/
theorem Node.preorder_ascending (node : Node) (laid : ∀ inner ∈ node.preorder, inner.Laid) :
    Ascending node.preorder ∧ ∀ inner ∈ node.preorder, inner.StartsIn node.span := by
  obtain ⟨kind, role, span, children⟩ := node
  rw [preorder] at laid ⊢
  obtain ⟨root, below⟩ := List.forall_mem_cons.mp laid
  obtain ⟨ascending, starts⟩ := preorderAll_ascending children below root.ordered
  have within : ∀ inner ∈ preorderAll children, inner.StartsIn span := by
    intro inner member
    obtain ⟨child, isChild, after, before⟩ := starts inner member
    have ⟨first, last⟩ := root.inside child isChild
    exact ⟨first.trans after, before.trans last⟩
  refine ⟨List.pairwise_cons.mpr ⟨fun inner member => (within inner member).1, ascending⟩, ?_⟩
  exact List.forall_mem_cons.mpr ⟨⟨le_rfl, root.forward⟩, within⟩

/-- Nodes in their order are traversed from the top, each inside its own span. -/
theorem Node.preorderAll_ascending (nodes : List Node)
    (laid : ∀ inner ∈ preorderAll nodes, inner.Laid)
    (ordered : nodes.Pairwise fun first second => first.span.stop ≤ second.span.start) :
    Ascending (preorderAll nodes) ∧
      ∀ inner ∈ preorderAll nodes, ∃ node ∈ nodes, inner.StartsIn node.span := by
  match nodes with
  | [] => exact ⟨List.Pairwise.nil, nofun⟩
  | node :: others =>
    rw [preorderAll] at laid ⊢
    obtain ⟨here, there⟩ := List.forall_mem_append.mp laid
    obtain ⟨behind, orderedOthers⟩ := List.pairwise_cons.mp ordered
    obtain ⟨ascending, starts⟩ := preorder_ascending node here
    obtain ⟨ascendingOthers, startsOthers⟩ := preorderAll_ascending others there orderedOthers
    refine ⟨List.pairwise_append.mpr ⟨ascending, ascendingOthers, ?_⟩, ?_⟩
    -- A part of the first node starts within its span, and the spans of the others lie behind it.
    · intro inner member outer otherMember
      obtain ⟨other, isOther, after, -⟩ := startsOthers outer otherMember
      exact ((starts inner member).2.trans (behind other isOther)).trans after
    · refine List.forall_mem_append.mpr ⟨fun inner member => ?_, fun inner member => ?_⟩
      · exact ⟨node, List.mem_cons_self, starts inner member⟩
      · obtain ⟨other, isOther, startsIn⟩ := startsOthers inner member
        exact ⟨other, List.mem_cons_of_mem node isOther, startsIn⟩

end

/-! ### Calls -/

/-- A node calls a function by its source text, and its first named argument is a literal; the name
is the literal without its quotes. -/
structure Tree.Calls (tree : Tree) (node : Node) (callee name : String) : Prop where
  isCall : node.kind = .call
  calls : ∃ part, node.child? .callee = some part ∧ String.ofList (tree.text part) = callee
  names : ∃ arguments literal, node.child? .arguments = some arguments ∧
    arguments.children.find? Node.isNamed = some literal ∧ literal.kind = .literal ∧
    String.ofList (NamedCall.unquoted (tree.text literal)) = name

end Script

namespace TestVocabulary

/-- A call of a function for groups declares a group. -/
def group? (vocabulary : TestVocabulary) (call : NamedCall) : Option (String × Place) :=
  if call.callee ∈ vocabulary.groupFunctions then some (call.name, call.place) else none

end TestVocabulary

namespace Script

/-- The name and the place of the group that a node declares. -/
def Tree.group? (tree : Tree) (vocabulary : TestVocabulary) (node : Node) :
    Option (String × Place) :=
  (NamedCall.ofNode? tree node).bind vocabulary.group?

end Script

namespace TestSymbols

open Script

variable (vocabulary : TestVocabulary)

/-! ### Calls in their order -/

/-- The symbols of one part of a text and those of a later part: all cases, and the groups of the
first part with the other groups of the second. -/
def join (first second : TestSymbols) : TestSymbols where
  groups := first.groups.union second.groups
  cases := first.cases ++ second.cases

end TestSymbols

end InterfaceAudit
