import Mathlib.Data.List.Induction
import Mathlib.Logic.Relation
import TypeCatalog.Proofs.Node.Rows

/-! Unions within unions. However the members of a union are put together, the lines are those of
one union of all of them: a union begins where its first member does, so a bar in front of the one
is a bar in front of the other. -/
namespace TypeCatalog

theorem Line.lead_append (depth : Nat) (before : String) {lines : List Line} (begun : lines ≠ [])
    (more : List Line) : lead depth before (lines ++ more) = lead depth before lines ++ more := by
  cases lines with
  | nil => exact absurd rfl begun
  | cons first rest => rfl

namespace TypeNode

theorem renderAt_ne_nil (depth : Nat) (node : TypeNode) : renderAt depth node ≠ [] := by
  have prints := renderAt_prints depth node
  intro empty
  rw [empty] at prints
  cases prints

mutual

/-- What is left of a node as a member of a union when all unions are taken apart. -/
def members : TypeNode → List TypeNode
  | union first others => members first ++ membersOfAll others
  | node => [node]

def membersOfAll : List TypeNode → List TypeNode
  | [] => []
  | node :: rest => members node ++ membersOfAll rest

end

theorem membersOfAll_eq (nodes : List TypeNode) : membersOfAll nodes = nodes.flatMap members := by
  induction nodes with
  | nil => rfl
  | cons node rest ih => rw [membersOfAll, List.flatMap_cons, ih]

def renderMembers (depth : Nat) : List TypeNode → List Line
  | [] => []
  | first :: others => renderAt depth first ++ renderOthers depth others

theorem renderOthers_append (depth : Nat) (nodes more : List TypeNode) :
    renderOthers depth (nodes ++ more) = renderOthers depth nodes ++ renderOthers depth more := by
  induction nodes with
  | nil => rfl
  | cons node rest ih => simp only [List.cons_append, renderOthers, ih, List.append_assoc]

theorem renderMembers_append (depth : Nat) {nodes : List TypeNode} (filled : nodes ≠ [])
    (more : List TypeNode) :
    renderMembers depth (nodes ++ more) = renderMembers depth nodes ++ renderOthers depth more := by
  cases nodes with
  | nil => exact absurd rfl filled
  | cons first others =>
    simp only [List.cons_append, renderMembers, renderOthers_append, List.append_assoc]

theorem lead_renderMembers (depth : Nat) (nodes : List TypeNode) :
    Line.lead depth "| " (renderMembers depth nodes) = renderOthers depth nodes := by
  cases nodes with
  | nil => rfl
  | cons first others =>
    rw [renderMembers, renderOthers, Line.lead_append _ _ (renderAt_ne_nil depth first)]

theorem members_ne_nil (node : TypeNode) : members node ≠ [] := by
  cases node with
  | union first others =>
    rw [members]
    exact List.append_ne_nil_of_left_ne_nil (members_ne_nil first) _
  | _ => simp [members]

mutual

theorem renderAt_eq_members (depth : Nat) (node : TypeNode) :
    renderAt depth node = renderMembers depth (members node) := by
  cases node with
  | union first others =>
    rw [renderAt, members, renderMembers_append depth (members_ne_nil first),
      ← renderAt_eq_members depth first, renderOthers_eq_members depth others]
  | _ => simp only [members, renderMembers, renderOthers, List.append_nil]

theorem renderOthers_eq_members (depth : Nat) (others : List TypeNode) :
    renderOthers depth others = renderOthers depth (membersOfAll others) := by
  cases others with
  | nil => rfl
  | cons node rest =>
    -- The bar in front of a union is the bar in front of its first member.
    rw [renderOthers, membersOfAll, renderOthers_append, renderAt_eq_members depth node,
      lead_renderMembers, renderOthers_eq_members depth rest]

end

theorem renderAt_of_members {a b : TypeNode} (same : members a = members b) (depth : Nat) :
    renderAt depth a = renderAt depth b := by
  rw [renderAt_eq_members, same, ← renderAt_eq_members]

theorem members_unionOf? {nodes : List TypeNode} {u : TypeNode} (made : unionOf? nodes = some u) :
    members u = nodes.flatMap members := by
  cases nodes with
  | nil => cases made
  | cons first others =>
    cases made
    rw [members, membersOfAll_eq, List.flatMap_cons]

/-- One of the members of a union, or of a union within it, is a union and makes room for its own
members. -/
inductive Splices : TypeNode → TypeNode → Prop where
  | here {before after others : List TypeNode} {first u v : TypeNode}
      (given : unionOf? (before ++ union first others :: after) = some u)
      (made : unionOf? (before ++ first :: others ++ after) = some v) : Splices u v
  | inside {before after : List TypeNode} {a b u v : TypeNode} (step : Splices a b)
      (given : unionOf? (before ++ a :: after) = some u)
      (made : unionOf? (before ++ b :: after) = some v) : Splices u v

/-- The node is made of these members, by beginning unions, adding to them and allowing `null`. -/
inductive Groups : TypeNode → List TypeNode → Prop where
  | one (node : TypeNode) : Groups node [node]
  | new {node : TypeNode} {nodes : List TypeNode} (first : Groups node nodes) :
      Groups (union node []) nodes
  | or {first node : TypeNode} {others nodes more : List TypeNode}
      (begun : Groups (union first others) nodes) (last : Groups node more) :
      Groups (union first (others ++ [node])) (nodes ++ more)
  | nullable {node : TypeNode} {nodes : List TypeNode} (inner : Groups node nodes) :
      Groups node.nullable (null :: nodes)

theorem Splices.members_eq {a b : TypeNode} (step : Splices a b) : members a = members b := by
  induction step with
  | here given made =>
    rw [members_unionOf? given, members_unionOf? made]
    simp [members, membersOfAll_eq]
  | inside step given made ih =>
    rw [members_unionOf? given, members_unionOf? made]
    simp [ih]

theorem Groups.members_eq {node : TypeNode} {nodes : List TypeNode} (groups : Groups node nodes) :
    members node = nodes.flatMap members := by
  induction groups with
  | one node => simp
  | new first ih => simp [members, membersOfAll, ih]
  | or begun last ih ih' =>
    rw [members, membersOfAll_eq] at ih ⊢
    rw [List.flatMap_append, List.flatMap_append, ← List.append_assoc, ih]
    simp [ih']
  | nullable inner ih => simp [TypeNode.nullable, members, membersOfAll, ih]

/-- To make a union of a list of members is to begin with the first and add the others. -/
theorem groups_unionOf? {nodes : List TypeNode} {u : TypeNode} (made : unionOf? nodes = some u) :
    Groups u nodes := by
  cases nodes with
  | nil => cases made
  | cons first others =>
    cases made
    induction others using List.reverseRecOn with
    | nil => exact .new (.one first)
    | append_singleton others last ih => exact .or ih (.one last)

/-- The lines of a union are the same at every depth when unions among its members make room for
their own members, however often and however deep. A union of one member is that member, and what is
put together of the same members in the same order has the same lines. -/
theorem renderAt_regrouped (depth : Nat) :
    (∀ u v, Relation.ReflTransGen Splices u v → renderAt depth u = renderAt depth v) ∧
    (∀ node, renderAt depth (union node []) = renderAt depth node) ∧
    (∀ nodes u, unionOf? nodes = some u → Groups u nodes) ∧
    ∀ nodes u v, Groups u nodes → Groups v nodes → renderAt depth u = renderAt depth v := by
  refine ⟨fun u v steps => ?_, fun node => ?_, fun _ _ => groups_unionOf?,
    fun nodes u v groups groups' => ?_⟩
  · induction steps with
    | refl => rfl
    | tail _ step ih => rw [ih, renderAt_of_members step.members_eq]
  · apply renderAt_of_members
    rw [members, membersOfAll, List.append_nil]
  · apply renderAt_of_members
    rw [groups.members_eq, groups'.members_eq]

/-- Two unions make room, one at the beginning and one behind it, with a member of several lines. -/
theorem renderAt_nested_nullable :
    let shape := interface "X" [("a", any)]
    let nested := union (nullable (union shape [string])) [number]
    let flat := union null [shape, string, number]
    Relation.ReflTransGen Splices nested flat ∧ Groups nested [null, shape, string, number] ∧
      unionOf? [null, shape, string, number] = some flat ∧
      renderAt 2 nested = renderAt 2 flat := by
  intro shape nested flat
  have first : Splices nested (union null [union shape [string], number]) :=
    @Splices.here [] [number] [union shape [string]] null _ _ rfl rfl
  have second : Splices (union null [union shape [string], number]) flat :=
    @Splices.here [null] [number] [string] shape _ _ rfl rfl
  have steps : Relation.ReflTransGen Splices nested flat := .tail (.single first) second
  have nullable := (Groups.or (.new (.one shape)) (.one string)).nullable
  have groups : Groups nested [null, shape, string, number] := .or (.new nullable) (.one number)
  exact ⟨steps, groups, rfl, (renderAt_regrouped 2).1 nested flat steps⟩

end TypeNode

end TypeCatalog
