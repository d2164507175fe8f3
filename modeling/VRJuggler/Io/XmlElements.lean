import VRJuggler.Io.XmlRoundTrip

/-!
# Elements in a row

Contents that are made in a loop: child elements of one name, and numbers.
-/
namespace VRJuggler.Io

namespace Content

variable {β : Type}

/-- Child elements of one name. -/
def children (tagName : String) (inner : β → Content) (bs : List β) : Content :=
  bs.foldr (fun b rest => .child tagName (inner b) rest) .nil

theorem calls_children (tagName : String) (inner : β → Content) (bs : List β) :
    (children tagName inner bs).calls =
      bs.flatMap fun b => .beginTag tagName :: ((inner b).calls ++ [.endTag]) := by
  induction bs with
  | nil => rfl
  | cons b bs ih =>
    rw [List.flatMap_cons, ← ih]
    simp only [children, List.foldr_cons, calls, List.cons_append, List.append_assoc,
      List.nil_append]

theorem layered_of_childless {c : Content} (childless : c.Childless) : c.Layered := by
  induction c with
  | nil => trivial
  | value k val rest _ => exact childless
  | attrib attributeName vals rest ih => exact ih childless
  | child tagName inner rest _ _ => exact childless.elim

theorem layered_children {tagName : String} {inner : β → Content} {bs : List β}
    (each : ∀ b ∈ bs, (inner b).Layered) : (children tagName inner bs).Layered := by
  induction bs with
  | nil => trivial
  | cons b bs ih =>
    exact ⟨each b (List.mem_cons_self ..),
      ih fun c member => each c (List.mem_cons_of_mem _ member)⟩

theorem legible_children {nt : NumberText} {tagName : String} {inner : β → Content}
    {bs : List β} (each : ∀ b ∈ bs, (inner b).Legible nt) :
    (children tagName inner bs).Legible nt := by
  induction bs with
  | nil => trivial
  | cons b bs ih =>
    exact ⟨each b (List.mem_cons_self ..),
      ih fun c member => each c (List.mem_cons_of_mem _ member)⟩

theorem finalAttribute_children (tagName : String) (inner : β → Content) (bs : List β)
    (attributeName : String) :
    (children tagName inner bs).finalAttribute attributeName = none := by
  induction bs with
  | nil => rfl
  | cons b bs ih => exact ih

/-- An attribute of one number, written once. -/
theorem legible_attribute {nt : NumberText} {attributeName : String} {k : Kind}
    {val : k.Carrier} {rest : Content} (number : k ≠ .string) (legible : ValueLegible nt k val)
    (once : rest.finalAttribute attributeName = none) (later : rest.Legible nt) :
    (Content.attrib attributeName [⟨k, val⟩] rest).Legible nt := by
  refine ⟨Or.inl fun v member => ?_, fun other again => ?_, later⟩
  · obtain rfl := List.mem_singleton.mp member
    exact ⟨number, legible⟩
  · rw [once] at again
    cases again

/-- Values of the element, before the rest. -/
def floats (vals : List (Kind.Carrier .float)) (rest : Content) : Content :=
  vals.foldr (fun val later => .value .float val later) rest

theorem calls_floats (vals : List (Kind.Carrier .float)) (rest : Content) :
    (floats vals rest).calls = vals.map (Call.write .float) ++ rest.calls := by
  induction vals with
  | nil => rfl
  | cons val vals ih => exact congrArg (List.cons _) ih

theorem childless_floats {vals : List (Kind.Carrier .float)} {rest : Content}
    (childless : rest.Childless) : (floats vals rest).Childless := by
  induction vals with
  | nil => exact childless
  | cons val vals ih => exact ih

theorem legible_floats {nt : NumberText} {vals : List (Kind.Carrier .float)} {rest : Content}
    (survive : ∀ val ∈ vals, nt.Survives .float val) (later : rest.Legible nt) :
    (floats vals rest).Legible nt := by
  induction vals with
  | nil => exact later
  | cons val vals ih =>
    exact ⟨survive val (List.mem_cons_self ..),
      ih fun other member => survive other (List.mem_cons_of_mem _ member)⟩

/-- An element with values only. -/
def ofValues (vals : List Value) : Content :=
  vals.foldr (fun v later => .value v.kind v.val later) .nil

theorem calls_ofValues (vals : List Value) : (ofValues vals).calls = vals.map Value.write := by
  induction vals with
  | nil => rfl
  | cons v vals ih => exact congrArg (List.cons _) ih

theorem childless_ofValues (vals : List Value) : (ofValues vals).Childless := by
  induction vals with
  | nil => trivial
  | cons v vals ih => exact ih

theorem legible_ofValues {nt : NumberText} {vals : List Value}
    (legible : ∀ v ∈ vals, ValueLegible nt v.kind v.val) : (ofValues vals).Legible nt := by
  induction vals with
  | nil => trivial
  | cons v vals ih =>
    rw [List.forall_mem_cons] at legible
    exact ⟨legible.1, ih legible.2⟩

end Content

end VRJuggler.Io
