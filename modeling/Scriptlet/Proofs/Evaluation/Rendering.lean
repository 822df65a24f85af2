import Mathlib
import Scriptlet.Proofs.Evaluation.WellFormed
import Scriptlet.Proofs.Session.Reached

/-! The texts of values.  In a well-formed state no array lies inside itself, so the text of a value can be written, in
so many frames, and the bound on how deep arrays may lie in it never shows. -/
namespace Scriptlet

section
variable {α β : Type} {f g : α → Option β} {items : List α}

theorem mapM_congr (h : ∀ a ∈ items, f a = g a) : items.mapM f = items.mapM g := by
  induction items with
  | nil => rfl
  | cons a items ih =>
    have hitems : items.mapM f = items.mapM g := ih fun b hb => h b (List.mem_cons_of_mem a hb)
    rw [List.mapM_cons, List.mapM_cons, h a List.mem_cons_self, hitems]

theorem isSome_mapM (h : ∀ a ∈ items, (f a).isSome) : (items.mapM f).isSome := by
  induction items with
  | nil => rfl
  | cons a items ih =>
    obtain ⟨b, hb⟩ := Option.isSome_iff_exists.mp (h a List.mem_cons_self)
    obtain ⟨bs, hbs⟩ := Option.isSome_iff_exists.mp (ih fun c hc => h c (List.mem_cons_of_mem a hc))
    simp [List.mapM_cons, hb, hbs]

end

namespace State
variable {γ : Type} {s : State} {v : Value} {id : ArrayId} {bound : Nat}

def Contains (s : State) (id outer : ArrayId) : Prop := ∃ vs, s.arrays[outer]? = some vs ∧ .arr id ∈ vs

/-- A value has a text, which takes up so many frames of a call stack, and no matter how deep one is ready to go into its
arrays, the text and the frames are the same. -/
def Renders (s : State) (v : Value) : Prop :=
  (∃ text, s.text? v = some text ∧
    ∀ bound, s.arrays.size ≤ bound → v.textWith s.strText? (s.arrText? bound) = some text) ∧
  ∀ stack, ∃ frames, s.frames? stack v = some frames ∧
    ∀ bound, s.arrays.size ≤ bound → v.framesWith stack (s.arrFrames? stack bound) = some frames

/-- What is made of arrays is put together from what is made of their elements, and nothing else. -/
structure Folds (s : State) (ofArr : Nat → ArrayId → Option γ) (ofValue : (ArrayId → Option γ) → Value → Option γ)
    (combine : List γ → γ) : Prop where
  step (bound : Nat) (id : ArrayId) :
    ofArr (bound + 1) id = s.arrays[id]?.bind fun vs => (vs.mapM (ofValue (ofArr bound))).map combine
  congr {v : Value} {f g : ArrayId → Option γ} (h : ∀ id, .array id ∈ v.refs → f id = g id) : ofValue f v = ofValue g v
  isSome {v : Value} {f : ArrayId → Option γ} (hv : s.Supports v) (h : ∀ id, .array id ∈ v.refs → (f id).isSome) :
    (ofValue f v).isSome

theorem isSome_strText? {id : TextId} (hid : s.Has (.text id)) : (s.strText? id).isSome := by
  have hlt : id < s.strings.size := s.size_texts ▸ hid
  simp [strText?, hlt]

theorem folds_text (s : State) :
    Folds s s.arrText? (Value.textWith s.strText?) fun parts => "[" ++ ",".intercalate parts ++ "]" where
  step bound id := by
    rw [arrText?]
    cases s.arrays[id]? with
    | none => rfl
    | some vs =>
      simp only [Option.bind_eq_bind, Option.bind_some]
      cases vs.mapM (Value.textWith s.strText? (s.arrText? bound)) <;> rfl
  congr {v f g} h := by
    induction v with
    | arr id => exact h id (by simp [Value.refs])
    | returned v ih => simp only [Value.textWith, ih h]
    | _ => rfl
  isSome {v f} hv h := by
    induction v with
    | str id => exact isSome_strText? (hv _ (by simp [Value.refs]))
    | arr id => exact h id (by simp [Value.refs])
    | returned v ih => simpa [Value.textWith] using ih hv h
    | _ => rfl

theorem folds_frames (s : State) (stack : Stack) :
    Folds s (s.arrFrames? stack) (Value.framesWith stack) fun parts => max (stack.writingValues.own .array + 1)
      (Frames.most (parts.map (stack.writingValues.around .array + 1 + ·))) where
  step bound id := by
    rw [arrFrames?]
    cases s.arrays[id]? with
    | none => rfl
    | some vs =>
      simp only [Option.bind_eq_bind, Option.bind_some]
      cases vs.mapM (Value.framesWith stack (s.arrFrames? stack bound)) <;> rfl
  congr {v f g} h := by
    induction v with
    | arr id => exact h id (by simp [Value.refs])
    | returned v ih => simp only [Value.framesWith, ih h]
    | _ => rfl
  isSome {v f} hv h := by
    induction v with
    | arr id => exact h id (by simp [Value.refs])
    | returned v ih => simpa [Value.framesWith] using ih hv h
    | _ => rfl

namespace WellFormed
section
variable {ofArr : Nat → ArrayId → Option γ} {ofValue : (ArrayId → Option γ) → Value → Option γ} {combine : List γ → γ}

/-- Inside an array lie older arrays only, so going as deep as its number is deep enough. -/
theorem ofArr_eq (h : s.WellFormed) (hfolds : Folds s ofArr ofValue combine) (hlt : id < bound) :
    ofArr bound id = ofArr (id + 1) id := by
  induction id using Nat.strongRecOn generalizing bound with
  | _ id ih =>
    obtain ⟨bound, rfl⟩ := Nat.exists_eq_add_of_lt hlt
    rw [hfolds.step, hfolds.step]
    cases hvs : s.arrays[id]? with
    | none => rfl
    | some vs =>
      have hparts : vs.mapM (ofValue (ofArr (id + bound))) = vs.mapM (ofValue (ofArr id)) := by
        refine mapM_congr fun v hv => hfolds.congr fun id' hid' => ?_
        have hlt' : id' < id := h.element_lt id id' (.element hvs hv hid')
        rw [ih id' hlt' (Nat.lt_add_right bound hlt'), ih id' hlt' hlt']
      simp only [Option.bind_some, hparts]

theorem isSome_ofArr (h : s.WellFormed) (hfolds : Folds s ofArr ofValue combine) (hid : s.Has (.array id)) :
    (ofArr (id + 1) id).isSome := by
  induction id using Nat.strongRecOn with
  | _ id ih =>
    have hlt : id < s.arrays.size := hid
    have hparts : (s.arrays[id].mapM (ofValue (ofArr id))).isSome := by
      refine isSome_mapM fun v hv => ?_
      have hrefers {r : Ref} (hr : r ∈ v.refs) : s.Refers (.array id) r :=
        .element (Array.getElem?_eq_getElem hlt) hv hr
      refine hfolds.isSome (fun r hr => h.has _ _ (hrefers hr)) fun id' hid' => ?_
      have hlt' : id' < id := h.element_lt id id' (hrefers hid')
      rw [h.ofArr_eq hfolds hlt']
      exact ih id' hlt' (h.has _ _ (hrefers hid'))
    obtain ⟨parts, hparts⟩ := Option.isSome_iff_exists.mp hparts
    simp [hfolds.step, hlt, hparts]

theorem exists_ofValue (h : s.WellFormed) (hfolds : Folds s ofArr ofValue combine) (hv : s.Supports v) :
    ∃ made, ofValue (ofArr s.arrays.size) v = some made ∧
      ∀ bound, s.arrays.size ≤ bound → ofValue (ofArr bound) v = some made := by
  have hbound (bound : Nat) (hle : s.arrays.size ≤ bound) :
      ofValue (ofArr bound) v = ofValue (ofArr s.arrays.size) v := by
    refine hfolds.congr fun id hid => ?_
    have hlt : id < s.arrays.size := hv _ hid
    rw [h.ofArr_eq hfolds hlt, h.ofArr_eq hfolds (Nat.lt_of_lt_of_le hlt hle)]
  have hmade : (ofValue (ofArr s.arrays.size) v).isSome := by
    refine hfolds.isSome hv fun id hid => ?_
    rw [h.ofArr_eq hfolds (hv _ hid)]
    exact h.isSome_ofArr hfolds (hv _ hid)
  obtain ⟨made, hmade⟩ := Option.isSome_iff_exists.mp hmade
  exact ⟨made, hmade, fun bound hle => (hbound bound hle).trans hmade⟩

end

theorem wellFounded_contains (h : s.WellFormed) : WellFounded s.Contains := by
  apply Subrelation.wf (r := (· < ·)) _ Nat.lt_wfRel.wf
  intro id outer hcontains
  obtain ⟨vs, hvs, hmem⟩ := hcontains
  exact h.element_lt outer id (.element hvs hmem (by simp [Value.refs]))

theorem renders (h : s.WellFormed) (hv : s.Supports v) : s.Renders v :=
  ⟨h.exists_ofValue s.folds_text hv, fun stack => h.exists_ofValue (s.folds_frames stack) hv⟩

theorem renders_of_find? (h : s.WellFormed) {E : ScopeId} {name : String} (hv : s.find? E name = some v) :
    s.Renders v := h.renders (h.supports_of_find? hv)

theorem renders_of_mem (h : s.WellFormed) {vs : List Value} (hvs : s.arrays[id]? = some vs) (hv : v ∈ vs) :
    s.Renders v := h.renders (h.supports_of_mem hvs hv)

end WellFormed

/-- The text of a value is made, or there is no room for it. -/
theorem Renders.textOf_eq (h : s.Renders v) (stack : Stack) (room : Nat) :
    (∃ t, s.text? v = some t ∧ Run.textOf stack room v s = (.ok t, s)) ∨
      (∃ frames, s.frames? stack v = some frames ∧ room < frames) ∧ Run.textOf stack room v s = (.error .tooDeep, s) := by
  obtain ⟨⟨t, ht, -⟩, hframes⟩ := h
  obtain ⟨frames, hframes, -⟩ := hframes stack
  by_cases hle : frames ≤ room
  · exact .inl ⟨t, ht, Run.textOf_eq_ok.mpr ⟨⟨frames, hframes, hle⟩, ht, rfl⟩⟩
  · refine .inr ⟨⟨frames, hframes, Nat.lt_of_not_le hle⟩, ?_⟩
    rcases hmade : Run.textOf stack room v s with ⟨why | t', s'⟩
    · obtain ⟨rfl, ⟨rfl, hnone⟩ | ⟨rfl, -⟩⟩ := Run.textOf_eq_error hmade
      · simp [hframes, ht] at hnone
      · rfl
    · obtain ⟨⟨frames', hframes', hle'⟩, -⟩ := Run.textOf_eq_ok.mp hmade
      obtain rfl := Option.some.inj (hframes.symm.trans hframes')
      exact absurd hle' hle

end State

namespace Eval
open Run

/-- A session has a text to show for a value, unless it takes up more frames than there are. -/
theorem evaluate_eq_nesting {session : Session} (h : session.Reached fun _ => True) {n : Node}
    (hnesting : (session.evaluate n).1 = .error .nesting) :
    ∃ v s frames, run session.settings State.globalScope n session.state = (.value v, s) ∧
      s.frames? session.settings.stack v = some frames ∧ session.settings.frames < frames := by
  have hready := Law.ready_of_ran Law.referential_closed Law.referential_start (fun _ _ => trivial) h
  obtain ⟨hwell, hanswers⟩ := Law.answers_of_run session.settings Law.referential_closed hready (n := n) trivial
  rcases hrun : run session.settings State.globalScope n session.state with ⟨result, s⟩
  rw [hrun] at hwell hanswers
  simp only [Session.evaluate, hrun] at hnesting
  split at hnesting
  · cases hnesting
  · cases hnesting
  · next v herror =>
    rcases hanswers v rfl with ⟨e, rfl⟩ | hv
    · exact absurd rfl (herror e)
    · rcases (hwell.renders hv).textOf_eq session.settings.stack session.settings.frames with
        ⟨t, -, hmade⟩ | ⟨⟨frames, hframes, hlt⟩, -⟩
      · simp only [hmade] at hnesting
        cases hnesting
      · exact ⟨v, s, frames, rfl, hframes, hlt⟩

/-- In every state that programs get to, arrays lie inside one another without a cycle.  So all values have texts: those
that scopes and arrays hold, results, arguments, and what a session shows, if it has room for it. -/
theorem containment_never_cyclic (settings : Settings) {w : Visit} (hw : w.Occurs settings fun _ => True) :
    (∀ s ∈ [w.state, (w.outcome settings).2],
      WellFounded s.Contains ∧ (∀ id, ¬ Relation.TransGen s.Contains id id) ∧
        (∀ E name v, s.find? E name = some v → s.Renders v) ∧
        ∀ (id : ArrayId) (vs : List Value), s.arrays[id]? = some vs → ∀ v ∈ vs, s.Renders v) ∧
      (∀ v s, w.outcome settings = (.ok v, s) → s.Renders v) ∧
      (∀ v s, w.outcome settings = (.error (.returned v), s) → s.Renders v) ∧
      (∀ called args s, w.Applies settings called args s → ∀ v ∈ args, s.Renders v) ∧
      ∀ session : Session, session.Reached (fun _ => True) →
        session.runHandled.2.Reached (fun _ => True) ∧ ∀ n, (session.evaluate n).1 = .error .nesting →
          ∃ v s frames, run session.settings State.globalScope n session.state = (.value v, s) ∧
            s.frames? session.settings.stack v = some frames ∧ session.settings.frames < frames := by
  obtain ⟨hready, hn⟩ := Law.ready_of_occurs Law.referential_closed Law.referential_start (fun _ _ => trivial) hw
  have hkeeps := Law.keeps_outcome settings Law.referential_closed hready hn
  refine ⟨fun s hs => ?_, fun v s heq => ?_, fun v s heq => ?_, fun called args s happlies v hv => ?_,
    fun session h => ⟨h.runHandled fun _ _ _ => trivial, fun _ => evaluate_eq_nesting h⟩⟩
  · have hwell : s.WellFormed := by
      rcases (by simpa using hs : s = w.state ∨ s = (w.outcome settings).2) with rfl | rfl
      · exact hready.holds
      · exact hkeeps.next.1
    have hfounded := hwell.wellFounded_contains
    refine ⟨hfounded, fun id => hfounded.transGen.irrefl.irrefl id, fun E name v => hwell.renders_of_find?, ?_⟩
    exact fun id vs hvs v => hwell.renders_of_mem hvs
  · obtain ⟨hnext, hv⟩ := hkeeps.of_ok heq
    exact hnext.1.renders hv
  · obtain ⟨hnext, hv⟩ := hkeeps.of_returned heq
    exact hnext.1.renders hv
  · obtain ⟨hready', -, hvs⟩ := Law.ready_of_applies Law.referential_closed hready hn happlies
    exact hready'.holds.renders (hvs v hv)

def selfPush : Visit :=
  ⟨6, 0, .program [.letStmt "a" (.array [.int 1]), .exprStmt (.call (.ident "push") [.ident "a", .ident "a"])],
    .initial⟩

/-- What comes of it is a new array that holds the old one. -/
theorem selfPush_not_cyclic :
    selfPush.Occurs ⟨.null, .flat, 6, 9⟩ (fun _ => True) ∧
      (selfPush.outcome ⟨.null, .flat, 6, 9⟩).2.arrays = #[[.int 1], [.arr 0, .int 1]] ∧
      WellFounded (selfPush.outcome ⟨.null, .flat, 6, 9⟩).2.Contains ∧
      (selfPush.outcome ⟨.null, .flat, 6, 9⟩).2.Renders (.arr 1) := by
  have hw : selfPush.Occurs ⟨.null, .flat, 6, 9⟩ fun _ => True := ⟨.initial, _, .start, trivial, .refl⟩
  have hvalue : (selfPush.outcome ⟨.null, .flat, 6, 9⟩).1 = .ok (.arr 1) := by cbv
  have h := containment_never_cyclic ⟨.null, .flat, 6, 9⟩ hw
  exact ⟨hw, by cbv, (h.1 _ (by simp)).1, h.2.1 (.arr 1) _ (Prod.ext hvalue rfl)⟩

end Eval
end Scriptlet
