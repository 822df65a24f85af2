import Scriptlet.Proofs.Evaluation.Steps
import Scriptlet.Eval.Builtin

/-! What can stop a step.  A builtin function gives its errors as values; only an object that is missing, or a text for
which there is no room, stops it. -/
namespace Scriptlet

/-- An object is not there, or there is no room for the text of one. -/
def Stop.OfObjects : Stop → Prop
  | broken | tooDeep => True
  | _ => False

namespace Run
variable {α β : Type} {P : Stop → Prop}

def StopsBy (P : Stop → Prop) (r : Run α) : Prop := ∀ s why s', r s = (.error why, s') → P why

theorem stopsBy_pure (a : α) : StopsBy P (pure a : Run α) := fun _ _ _ h => by cases h

theorem stopsBy_stop {why : Stop} (hwhy : P why) : StopsBy P (stop why : Run α) := fun _ _ _ h => by
  obtain rfl := Except.error.inj (Prod.mk.inj h).1
  exact hwhy

theorem stopsBy_look (f : State → α) : StopsBy P (look f) := fun _ _ _ h => by cases h

theorem stopsBy_newString (t : String) : StopsBy P (newString t) := fun _ _ _ h => by cases h

theorem stopsBy_newText (cs : List Char) : StopsBy P (newText cs) := stopsBy_newString _

theorem stopsBy_newArray (vs : List Value) : StopsBy P (newArray vs) := fun _ _ _ h => by cases h

theorem stopsBy_change (f : State → State) : StopsBy P (change f) := fun _ _ _ h => by cases h

theorem stopsBy_find (hbroken : P .broken) (f : State → Option α) : StopsBy P (find f) := fun _ _ _ h => by
  obtain ⟨-, rfl, -⟩ := find_eq_error.mp h
  exact hbroken

theorem StopsBy.bind {r : Run α} {f : α → Run β} (hr : StopsBy P r) (hf : ∀ a, StopsBy P (f a)) :
    StopsBy P (r >>= f) := by
  intro s why s' h
  rcases bind_eq_error.mp h with hstop | ⟨a, s₁, -, hstop⟩
  · exact hr _ _ _ hstop
  · exact hf a _ _ _ hstop

theorem stopsBy_makeText (hdeep : P .tooDeep) (room frames : Nat) (t : String) : StopsBy P (makeText room frames t) :=
  fun _ _ _ h => by
    obtain ⟨-, rfl, -⟩ := makeText_eq_error.mp h
    exact hdeep

theorem stopsBy_textOf (hbroken : P .broken) (hdeep : P .tooDeep) (stack : Stack) (room : Nat) (v : Value) :
    StopsBy P (textOf stack room v) :=
  (stopsBy_find hbroken _).bind fun _ => (stopsBy_find hbroken _).bind fun _ => stopsBy_makeText hdeep _ _ _

end Run

namespace Builtin
open Run
variable {stack : Stack} {room : Nat} {onEmpty : OnEmpty} {args : List Value}

theorem stopsBy_one {go : Value → Run Value} (hgo : ∀ v, StopsBy Stop.OfObjects (go v)) :
    StopsBy Stop.OfObjects (one args go) := by
  unfold one
  split
  · exact hgo _
  · exact stopsBy_pure _

theorem stopsBy_two {go : Value → Value → Run Value} (hgo : ∀ v w, StopsBy Stop.OfObjects (go v w)) :
    StopsBy Stop.OfObjects (two args go) := by
  unfold two
  split
  · exact hgo _ _
  · exact stopsBy_pure _

theorem stopsBy_onSequence {which : String} {v : Value} {go : Holder → Run Value}
    (hgo : ∀ h, StopsBy Stop.OfObjects (go h)) : StopsBy Stop.OfObjects (onSequence which v go) := by
  unfold onSequence
  split
  · exact (stopsBy_find trivial _).bind fun _ => hgo _
  · exact (stopsBy_find trivial _).bind fun _ => hgo _
  · exact stopsBy_pure _

theorem stopsBy_printAll (vs : List Value) : StopsBy Stop.OfObjects (printAll stack room vs) := by
  induction vs with
  | nil => exact stopsBy_pure _
  | cons v vs ih => exact ((stopsBy_textOf trivial trivial _ _ _).bind fun _ => stopsBy_change _).bind fun _ => ih

theorem stopsBy_plainText (v : Value) : StopsBy Stop.OfObjects (plainText stack room v) := by
  unfold plainText
  split
  · exact stopsBy_find trivial _
  · exact stopsBy_textOf trivial trivial _ _ _

theorem stopsBy_length (holder : Holder) : StopsBy Stop.OfObjects (Builtin.length holder) := by
  cases holder <;> exact stopsBy_pure _

theorem stopsBy_ofEmpty {fresh : Run Value} (hfresh : StopsBy Stop.OfObjects fresh) :
    StopsBy Stop.OfObjects (ofEmpty onEmpty fresh) := by
  cases onEmpty with
  | null => exact stopsBy_pure _
  | empty => exact hfresh

theorem stopsBy_firstOf (holder : Holder) : StopsBy Stop.OfObjects (firstOf onEmpty holder) := by
  unfold firstOf
  split
  · split
    · exact stopsBy_newText _
    · exact stopsBy_ofEmpty (stopsBy_newText _)
  · exact stopsBy_pure _
  · exact stopsBy_ofEmpty (stopsBy_newArray _)

theorem stopsBy_restOf (holder : Holder) : StopsBy Stop.OfObjects (restOf onEmpty holder) := by
  unfold restOf
  split
  · split
    · exact stopsBy_newText _
    · exact stopsBy_ofEmpty (stopsBy_newText _)
  · exact stopsBy_newArray _
  · exact stopsBy_ofEmpty (stopsBy_newArray _)

theorem stopsBy_pushOn (v : Value) (holder : Holder) : StopsBy Stop.OfObjects (pushOn stack room v holder) := by
  cases holder with
  | text id t => exact (stopsBy_plainText v).bind fun _ => stopsBy_newString _
  | array id vs => exact stopsBy_newArray _

theorem stopsBy_appendTo (v : Value) (holder : Holder) : StopsBy Stop.OfObjects (appendTo stack room v holder) := by
  cases holder with
  | text id t => exact (stopsBy_plainText v).bind fun _ => stopsBy_newString _
  | array id vs => exact stopsBy_newArray _

theorem stopsBy_popFrom (holder : Holder) : StopsBy Stop.OfObjects (popFrom holder) := by
  unfold popFrom
  split
  · split
    · exact (stopsBy_change _).bind fun _ => stopsBy_newText _
    · exact stopsBy_pure _
  · exact (stopsBy_change _).bind fun _ => stopsBy_pure _
  · exact stopsBy_pure _

theorem stopsBy_removeLastFrom (holder : Holder) : StopsBy Stop.OfObjects (removeLastFrom holder) := by
  unfold removeLastFrom
  split
  · split
    · exact (stopsBy_change _).bind fun _ => stopsBy_newText _
    · exact stopsBy_pure _
  · split
    · exact (stopsBy_change _).bind fun _ => stopsBy_pure _
    · exact stopsBy_pure _

/-- A builtin function gives its errors as values; only objects stop it. -/
theorem stopsBy_call (b : Builtin) (settings : Settings) (room : Nat) (args : List Value) :
    StopsBy Stop.OfObjects (b.call settings room args) := by
  cases b with
  | print =>
    show StopsBy Stop.OfObjects (if args.isEmpty then arity 0 ">= 1" else printAll settings.stack room args)
    split
    · exact stopsBy_pure _
    · exact stopsBy_printAll _
  | len => exact stopsBy_one fun _ => stopsBy_onSequence stopsBy_length
  | first => exact stopsBy_one fun _ => stopsBy_onSequence stopsBy_firstOf
  | rest => exact stopsBy_one fun _ => stopsBy_onSequence stopsBy_restOf
  | push => exact stopsBy_two fun _ w => stopsBy_onSequence (stopsBy_pushOn w)
  | append => exact stopsBy_two fun _ w => stopsBy_onSequence (stopsBy_appendTo w)
  | pop => exact stopsBy_one fun _ => stopsBy_onSequence stopsBy_popFrom
  | removeLast => exact stopsBy_one fun _ => stopsBy_onSequence stopsBy_removeLastFrom

end Builtin
end Scriptlet
