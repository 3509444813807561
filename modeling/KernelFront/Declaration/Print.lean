import KernelFront.Declaration.Basic

/-!
# Printing declarations

A declaration prints its qualifiers, the name of its node and the declarator of a variable; one
without a node prints nothing. A node prints the declaration that introduces it. The parameters of a
function stand one to a line, aligned with the first: their indent is read off the printer behind the
open parenthesis.

All of it is put out piece by piece, and an array bound prints by its own means, so it might look at
what stands before it. As long as no bound does (`Modifiers.SteadyBounds`), a declaration prints one
text wherever it stands (`Declaration.prints`), and so does the header of a function.
-/

namespace KernelFront

open Printer

namespace Pointer

/-- Prints the star and its qualifiers. -/
def print (l : Pointer) (p : Printer) : Printer :=
  let p := p.push "*"
  if l.qualifiers.isEmpty then p else (p.push " ").push l.qualifiers.text

/-- Prints a level of a declarator; what follows is set off from the qualifiers. -/
def printLevel (l : Pointer) (p : Printer) : Printer :=
  if l.qualifiers.isEmpty then l.print p else (l.print p).push " "

/-- What a pointer level prints alone. -/
def text (l : Pointer) : String := (l.print {}).text

/-- The same in a declarator. -/
def levelText (l : Pointer) : String := if l.qualifiers.isEmpty then l.text else l.text ++ " "

theorem prints (l : Pointer) :
    Prints l.print (if l.qualifiers.isEmpty then "*" else "* " ++ l.qualifiers.text) := by
  intro p
  unfold print
  split
  · rfl
  · rw [push_push, push_push, ← String.append_assoc]
    rfl

theorem prints_level (l : Pointer) : Prints l.printLevel l.levelText := by
  intro p
  unfold printLevel levelText
  rw [l.prints.steady p]
  split
  · rfl
  · exact push_push ..

end Pointer

namespace Bound

/-- What a bound prints alone. -/
def text (b : Bound) : String := (b.print {}).text

end Bound

namespace Dimension

def print (d : Dimension) (p : Printer) : Printer :=
  match d.bound with
  | some b => (b.print (p.push "[")).push "]"
  | none => p.push "[]"

/-- What a dimension prints alone. -/
def text (d : Dimension) : String := (d.print {}).text

theorem prints {d : Dimension} (h : ∀ b ∈ d.bound, Steady b.print) :
    Prints d.print ("[" ++ (d.bound.map Bound.text).getD "" ++ "]") := by
  intro p
  unfold print
  split
  · rename_i b hb
    rw [hb, h b hb, push_push, push_push, ← String.append_assoc]
    rfl
  · rename_i hb
    rw [hb]
    rfl

end Dimension

namespace Modifiers

/-- Every array bound prints the same text wherever it stands. -/
def SteadyBounds (m : Modifiers) : Prop := ∀ d ∈ m.dimensions, ∀ b ∈ d.bound, Steady b.print

/-- Prints the declarator of a variable. -/
def printDeclarator (m : Modifiers) (variableName : String) (p : Printer) : Printer :=
  let p := m.pointers.foldl (fun p l => l.printLevel p) p
  m.dimensions.foldl (fun p d => d.print p) (p.push variableName)

theorem prints_declarator {m : Modifiers} (h : m.SteadyBounds) (variableName : String) :
    Prints (m.printDeclarator variableName) (String.join (m.pointers.map Pointer.levelText) ++
      variableName ++ String.join (m.dimensions.map Dimension.text)) :=
  ((Prints.foldl fun l _ => l.prints_level).comp (prints_push variableName)).comp
    (Prints.foldl fun d hd => (Dimension.prints (h d hd)).steady)

end Modifiers

namespace Declaration

/-- Prints what stands before the declarator: the qualifiers and the name of the node. -/
def printSpecifiers (d : Declaration) (n : Node) (p : Printer) : Printer :=
  let s := d.modifiers.qualifiers
  let p := if s.isEmpty then p else (p.push s.text).push " "
  (p.push n.name).push " "

/-- Prints what declares a variable, without the type if another variable stands before it. -/
def print (d : Declaration) (variableName : String) (withType : Bool) (p : Printer) : Printer :=
  match d.node? with
  | none => p
  | some n =>
    d.modifiers.printDeclarator variableName (if withType then d.printSpecifiers n p else p)

/-- What a declaration prints alone. -/
def text (d : Declaration) (variableName : String) (withType : Bool) : String :=
  (d.print variableName withType {}).text

/-- The text of the specifiers. -/
def specifiers (d : Declaration) (n : Node) : String :=
  let s := d.modifiers.qualifiers
  (if s.isEmpty then "" else s.text ++ " ") ++ n.name ++ " "

theorem prints_specifiers (d : Declaration) (n : Node) :
    Prints (d.printSpecifiers n) (d.specifiers n) := by
  intro p
  cases hs : d.modifiers.qualifiers.isEmpty <;> simp [printSpecifiers, specifiers, hs]

theorem prints {d : Declaration} (h : d.modifiers.SteadyBounds) (variableName : String)
    (withType : Bool) :
    Prints (d.print variableName withType) (match d.node? with
      | none => ""
      | some n => (if withType then d.specifiers n else "") ++
          (d.modifiers.printDeclarator variableName {}).text) := by
  intro p
  unfold print
  split
  · exact (push_empty p).symm
  · rename_i n _
    rw [(Modifiers.prints_declarator h variableName).steady]
    cases withType with
    | true => rw [if_pos rfl, if_pos rfl, d.prints_specifiers n, push_push]
    | false => rw [if_neg Bool.false_ne_true, if_neg Bool.false_ne_true, String.empty_append]

end Declaration

namespace FunctionForm

/-- Prints the result type of a function around the declarator of its name. -/
def printHeader (form : FunctionForm) (result : Declaration) (name : String) (p : Printer) :
    Printer :=
  if form.isPointer then (result.print ("(*" ++ name) true p).push ")"
  else if form.isBlock then (result.print ("(^" ++ name) true p).push ")"
  else result.print name true p

end FunctionForm

/-- A list of texts as its first and the separator before each other one. -/
theorem intercalate_cons (sep t : String) (ts : List String) :
    String.intercalate sep (t :: ts) = t ++ String.join (ts.map (sep ++ ·)) := by
  induction ts generalizing t with
  | nil => rw [String.intercalate_singleton, List.map_nil, String.join_nil, String.append_empty]
  | cons u us ih =>
    rw [String.intercalate_cons_cons, ih, List.map_cons, String.join_cons, String.append_assoc,
      String.append_assoc]

namespace Parameters

/-- Prints one parameter. -/
def printOne (p : Printer) (v : Declaration × Option Token) : Printer :=
  v.1.print (Node.nameOf v.2) true p

/-- Prints the parameters, each but the first behind the indent of a new line. -/
def print (ps : Parameters) (indent : String) (p : Printer) : Printer :=
  match ps.toList with
  | [] => p
  | v :: vs => vs.foldl (fun p v => printOne ((p.push ",\n").push indent) v) (printOne p v)

/-- What the parameters print alone, each for itself. -/
def texts (ps : Parameters) : List String := ps.toList.map fun v => (printOne {} v).text

/-- Every array bound of a parameter prints the same text wherever it stands. -/
def SteadyBounds (ps : Parameters) : Prop := ∀ v ∈ ps.toList, v.1.modifiers.SteadyBounds

theorem prints {ps : Parameters} (h : ps.SteadyBounds) (indent : String) :
    Prints (ps.print indent) (String.intercalate (",\n" ++ indent) ps.texts) := by
  intro p
  unfold SteadyBounds at h
  unfold print texts
  generalize ps.toList = vs at h
  cases vs with
  | nil => exact (push_empty p).symm
  | cons v vs =>
    obtain ⟨hv, hvs⟩ := List.forall_mem_cons.1 h
    have hone (v) (hv : v.1.modifiers.SteadyBounds) : Steady (printOne · v) :=
      (Declaration.prints hv _ true).steady
    have hline (w) (hw : w ∈ vs) : Prints (fun p => printOne ((p.push ",\n").push indent) w)
        (",\n" ++ indent ++ (printOne {} w).text) :=
      ((prints_push ",\n").comp (prints_push indent)).comp (hone w (hvs w hw))
    rw [List.map_cons, intercalate_cons, List.map_map]
    exact (hone v hv).comp (Prints.foldl hline) p

end Parameters

namespace Node

/-- Prints the declaration that introduces a node. -/
def print (n : Node) (p : Printer) : Printer :=
  match n with
  | primitive name => p.push name.text
  | typedef _ base => base.print n.name true (p.push "typedef ")
  | function _ result parameters form =>
    let p := (form.printHeader result n.name p).push "("
    (parameters.print p.indent p).push ")"
  | aggregate _ kind =>
    let p := p.push kind.keyword
    if n.isNamed then (p.push " ").push n.name else p

end Node

end KernelFront
