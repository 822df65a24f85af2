import Scriptlet.Eval.Run

/-! How steps run one after another: what a stop cuts short, where it comes from, and how what the parts of a step do
shows in what the step does. -/
namespace Scriptlet
namespace Run
variable {α β ι : Type} {r r' : Run α} {f f' : α → Run β} {s s' s'' : State} {why : Stop}

theorem bind_of_ok {a : α} (h : r s = (.ok a, s')) : (r >>= f) s = f a s' := by
  simp only [bind, Run.bind, h]

theorem bind_of_error (h : r s = (.error why, s')) : (r >>= f) s = (.error why, s') := by
  simp only [bind, Run.bind, h]

theorem bind_eq_ok {b : β} : (r >>= f) s = (.ok b, s'') ↔ ∃ a s', r s = (.ok a, s') ∧ f a s' = (.ok b, s'') := by
  rcases hr : r s with ⟨_ | a, s'⟩
  · simp [bind_of_error hr]
  · rw [bind_of_ok hr]
    refine ⟨fun h => ⟨a, s', rfl, h⟩, ?_⟩
    rintro ⟨_, _, heq, h⟩
    cases heq
    exact h

theorem bind_eq_error : (r >>= f) s = (.error why, s'') ↔
    r s = (.error why, s'') ∨ ∃ a s', r s = (.ok a, s') ∧ f a s' = (.error why, s'') := by
  rcases hr : r s with ⟨_ | a, s'⟩
  · simp [bind_of_error hr]
  · rw [bind_of_ok hr]
    refine ⟨fun h => .inr ⟨a, s', rfl, h⟩, ?_⟩
    rintro (h | ⟨_, _, heq, h⟩)
    · cases h
    · cases heq
      exact h

/-- From `g s`, one step gives what the other gives from `s`, and leaves the image under `g` of what that leaves. -/
def Mirrors (g : State → State) (r r' : Run α) (s : State) : Prop := r' (g s) = ((r s).1, g (r s).2)

section
variable {g : State → State}

theorem Mirrors.of_ok {a : α} (h : Mirrors g r r' s) (hok : r s = (.ok a, s')) : r' (g s) = (.ok a, g s') := by
  rw [h, hok]

theorem Mirrors.of_error (h : Mirrors g r r' s) (hstop : r s = (.error why, s')) : r' (g s) = (.error why, g s') := by
  rw [h, hstop]

theorem mirrors_of_eq {outcome : Except Stop α × State} (h : r s = outcome) (h' : r' (g s) = (outcome.1, g outcome.2)) :
    Mirrors g r r' s := by
  rw [Mirrors, h, h']

theorem mirrors_look {f : State → α} (h : f (g s) = f s) : Mirrors g (look f) (look f) s := by
  simp only [Mirrors, look, h]

theorem mirrors_find {f : State → Option α} (h : f (g s) = f s) : Mirrors g (find f) (find f) s := by
  simp only [Mirrors, find, h]
  cases f s <;> rfl

theorem mirrors_makeText {room frames : Nat} {t : String} :
    Mirrors g (makeText room frames t) (makeText room frames t) s := by
  by_cases h : frames ≤ room <;> simp only [Mirrors, makeText, h, if_true, if_false] <;> rfl

theorem mirrors_change {f : State → State} (h : f (g s) = g (f s)) : Mirrors g (change f) (change f) s := by
  simp only [Mirrors, change, h]

theorem mirrors_use (v : Value) : Mirrors g (use v) (use v) s := by
  cases v <;> rfl

theorem mirrors_bind (hr : Mirrors g r r' s) (hf : ∀ a s', r s = (.ok a, s') → Mirrors g (f a) (f' a) s') :
    Mirrors g (r >>= f) (r' >>= f') s := by
  rcases h : r s with ⟨why | a, s'⟩
  · exact mirrors_of_eq (bind_of_error h) (bind_of_error (hr.of_error h))
  · have hrest : (r' >>= f') (g s) = f' a (g s') := bind_of_ok (hr.of_ok h)
    rw [Mirrors, bind_of_ok h, hrest]
    exact hf a s' h

end

theorem bind_congr (hr : r s = r' s) (hf : ∀ a s', r s = (.ok a, s') → f a s' = f' a s') :
    (r >>= f) s = (r' >>= f') s := by
  have hmirrors : Mirrors id (r >>= f) (r' >>= f') s := mirrors_bind hr.symm fun a s' ha => (hf a s' ha).symm
  exact hmirrors.symm

theorem fail_eq_error {e : EvalError} (h : (fail e : Run α) s = (.error why, s')) : why = .failed e ∧ s' = s := by
  obtain ⟨hwhy, rfl⟩ := Prod.mk.inj h
  exact ⟨(Except.error.inj hwhy).symm, rfl⟩

theorem find_eq_ok {f : State → Option α} {a : α} : find f s = (.ok a, s') ↔ f s = some a ∧ s = s' := by
  unfold find
  split <;> simp [*]

theorem find_eq_error {f : State → Option α} : find f s = (.error why, s') ↔ f s = none ∧ why = .broken ∧ s = s' := by
  unfold find
  split <;> simp [*, eq_comm]

theorem string_eq_ok {id : TextId} {t : String} :
    string id s = (.ok t, s') ↔ s.texts[id]? = some t.toList ∧ s = s' := by
  rw [string, find_eq_ok, State.getElem?_texts, Option.map_eq_some_iff]
  simp [String.toList_inj]

theorem text_eq_ok {id : TextId} {cs : List Char} : text id s = (.ok cs, s') ↔ s.texts[id]? = some cs ∧ s = s' := by
  rw [text, find_eq_ok, State.getElem?_texts]

theorem text_eq_error {id : TextId} :
    text id s = (.error why, s') ↔ s.texts[id]? = none ∧ why = .broken ∧ s = s' := by
  rw [text, find_eq_error, State.getElem?_texts]

theorem makeText_eq_ok {room frames : Nat} {t t' : String} :
    makeText room frames t s = (.ok t', s') ↔ frames ≤ room ∧ t = t' ∧ s = s' := by
  by_cases h : frames ≤ room <;> simp [makeText, h, pure, stop]

theorem makeText_eq_error {room frames : Nat} {t : String} :
    makeText room frames t s = (.error why, s') ↔ ¬frames ≤ room ∧ why = .tooDeep ∧ s = s' := by
  by_cases h : frames ≤ room <;> simp [makeText, h, pure, stop, eq_comm]

theorem textOf_eq_ok {stack : Stack} {room : Nat} {v : Value} {t : String} : textOf stack room v s = (.ok t, s') ↔
    (∃ frames, s.frames? stack v = some frames ∧ frames ≤ room) ∧ s.text? v = some t ∧ s = s' := by
  simp only [textOf, bind_eq_ok, find_eq_ok, makeText_eq_ok]
  constructor
  · rintro ⟨frames, _, ⟨hframes, rfl⟩, t', _, ⟨ht, rfl⟩, hle, rfl, rfl⟩
    exact ⟨⟨frames, hframes, hle⟩, ht, rfl⟩
  · rintro ⟨⟨frames, hframes, hle⟩, ht, rfl⟩
    exact ⟨frames, s, ⟨hframes, rfl⟩, t, s, ⟨ht, rfl⟩, hle, rfl, rfl⟩

theorem textOf_eq_error {stack : Stack} {room : Nat} {v : Value} (h : textOf stack room v s = (.error why, s')) :
    s = s' ∧ (why = .broken ∧ (s.frames? stack v = none ∨ s.text? v = none) ∨
      why = .tooDeep ∧ ∃ frames, s.frames? stack v = some frames ∧ ¬frames ≤ room) := by
  rcases bind_eq_error.mp h with hfind | ⟨frames, s₁, hframes, h⟩
  · obtain ⟨hnone, rfl, rfl⟩ := find_eq_error.mp hfind
    exact ⟨rfl, .inl ⟨rfl, .inl hnone⟩⟩
  obtain ⟨hsome, rfl⟩ := find_eq_ok.mp hframes
  rcases bind_eq_error.mp h with hfind | ⟨t, s₂, htext, h⟩
  · obtain ⟨hnone, rfl, rfl⟩ := find_eq_error.mp hfind
    exact ⟨rfl, .inl ⟨rfl, .inr hnone⟩⟩
  · obtain ⟨-, rfl⟩ := find_eq_ok.mp htext
    obtain ⟨hle, rfl, rfl⟩ := makeText_eq_error.mp h
    exact ⟨rfl, .inr ⟨rfl, frames, hsome, hle⟩⟩

theorem newString_eq_newText (t : String) : newString t = newText t.toList := by
  rw [newText, String.ofList_toList]

theorem bindName_eq_error {scope : ScopeId} {name : String} {v : Value}
    (h : bindName scope name v s = (.error why, s')) : s.scopes[scope]? = none ∧ why = .broken ∧ s = s' := by
  rcases bind_eq_error.mp h with hfind | ⟨_, _, -, hchange⟩
  · exact find_eq_error.mp hfind
  · cases hchange

theorem use_eq_error {v : Value} (h : use v s = (.error why, s')) :
    s' = s ∧ ((∃ u, v = .returned u ∧ why = .returned u) ∨ ∃ e, v = .error e ∧ why = .failed e) := by
  cases v with
  | returned u =>
    obtain ⟨hwhy, rfl⟩ := Prod.mk.inj h
    exact ⟨rfl, .inl ⟨u, rfl, (Except.error.inj hwhy).symm⟩⟩
  | error e =>
    obtain ⟨hwhy, rfl⟩ := Prod.mk.inj h
    exact ⟨rfl, .inr ⟨e, rfl, (Except.error.inj hwhy).symm⟩⟩
  | _ => cases h

theorem endReturn_of_returned {r : Run Value} {v : Value} (h : r s = (.error (.returned v), s')) :
    endReturn r s = use v s' := by
  simp only [endReturn, h]

theorem endReturn_of_error {r : Run Value} (h : r s = (.error why, s')) (hwhy : ∀ v, why ≠ .returned v) :
    endReturn r s = (.error why, s') := by
  cases why with
  | returned v => exact absurd rfl (hwhy v)
  | _ => simp only [endReturn, h]

theorem endReturn_eq_error {r : Run Value} (h : endReturn r s = (.error why, s')) :
    (r s = (.error why, s') ∧ ∀ v, why ≠ .returned v) ∨
      ∃ v s₁, r s = (.error (.returned v), s₁) ∧ use v s₁ = (.error why, s') := by
  unfold endReturn at h
  split at h
  · next v s₁ heq => exact .inr ⟨v, s₁, heq, h⟩
  · next hne =>
    left
    refine ⟨h, ?_⟩
    rintro v rfl
    exact hne v s' h

theorem mirrors_endReturn {g : State → State} {r r' : Run Value} (h : Mirrors g r r' s) :
    Mirrors g (endReturn r) (endReturn r') s := by
  rcases hr : r s with ⟨why | v, s'⟩
  · cases why with
    | returned v =>
      rw [Mirrors, endReturn_of_returned hr, endReturn_of_returned (h.of_error hr)]
      exact mirrors_use v
    | _ => exact mirrors_of_eq (endReturn_of_error hr (by simp)) (endReturn_of_error (h.of_error hr) (by simp))
  · have hok {r : Run Value} {s s' : State} (hr : r s = (.ok v, s')) : endReturn r s = (.ok v, s') := by
      simp only [endReturn, hr]
    exact mirrors_of_eq (hok hr) (hok (h.of_ok hr))

section
variable {step step' : ι → Run Value} {before after : List ι} {item : ι}

theorem each_cons_of_ok {v : Value} (h : step item s = (.ok v, s')) {vs : List Value}
    (hrest : each step after s' = (.ok vs, s'')) : each step (item :: after) s = (.ok (v :: vs), s'') := by
  rw [each, bind_of_ok h, bind_of_ok hrest]
  rfl

theorem length_of_each {vs : List Value} (h : each step before s = (.ok vs, s')) : vs.length = before.length := by
  induction before generalizing s s' vs with
  | nil =>
    obtain rfl := Except.ok.inj (Prod.mk.inj h).1
    rfl
  | cons first before ih =>
    obtain ⟨v, s₁, -, hrest⟩ := bind_eq_ok.mp h
    obtain ⟨vs', s₂, hothers, hs⟩ := bind_eq_ok.mp hrest
    obtain rfl := Except.ok.inj (Prod.mk.inj hs).1
    exact congrArg (· + 1) (ih hothers)

theorem each_of_error {vs : List Value} (hbefore : each step before s = (.ok vs, s'))
    (h : step item s' = (.error why, s'')) : each step (before ++ item :: after) s = (.error why, s'') := by
  induction before generalizing s vs with
  | nil =>
    obtain ⟨-, rfl⟩ := Prod.mk.inj hbefore
    exact bind_of_error h
  | cons first before ih =>
    obtain ⟨v, s₁, hfirst, hrest⟩ := bind_eq_ok.mp hbefore
    obtain ⟨vs', s₂, hothers, hs⟩ := bind_eq_ok.mp hrest
    obtain ⟨-, rfl⟩ := Prod.mk.inj hs
    rw [List.cons_append, each, bind_of_ok hfirst, bind_of_error (ih hothers)]

theorem inOrder_of_error {last v : Value} (hbefore : inOrder step last before s = (.ok v, s'))
    (h : step item s' = (.error why, s'')) :
    inOrder step last (before ++ item :: after) s = (.error why, s'') := by
  induction before generalizing s last with
  | nil =>
    obtain ⟨-, rfl⟩ := Prod.mk.inj hbefore
    exact bind_of_error h
  | cons first before ih =>
    obtain ⟨u, s₁, hfirst, hrest⟩ := bind_eq_ok.mp hbefore
    rw [List.cons_append, inOrder, bind_of_ok hfirst, ih hrest]

/-- What stops some items is what stops one of them, after those before it. -/
theorem each_eq_error {items : List ι} (h : each step items s = (.error why, s'')) :
    ∃ before item after vs s', items = before ++ item :: after ∧ each step before s = (.ok vs, s') ∧
      step item s' = (.error why, s'') := by
  induction items generalizing s with
  | nil => cases h
  | cons first rest ih =>
    rcases bind_eq_error.mp h with hfirst | ⟨v, s₁, hfirst, hrest⟩
    · exact ⟨[], first, rest, [], s, rfl, rfl, hfirst⟩
    · rcases bind_eq_error.mp hrest with hothers | ⟨_, _, -, hdone⟩
      · obtain ⟨before, item, after, vs, s', rfl, hbefore, hitem⟩ := ih hothers
        exact ⟨first :: before, item, after, v :: vs, s', rfl, each_cons_of_ok hfirst hbefore, hitem⟩
      · cases hdone

theorem inOrder_eq_error {items : List ι} {last : Value} (h : inOrder step last items s = (.error why, s'')) :
    ∃ before item after v s', items = before ++ item :: after ∧ inOrder step last before s = (.ok v, s') ∧
      step item s' = (.error why, s'') := by
  induction items generalizing s last with
  | nil => cases h
  | cons first rest ih =>
    rcases bind_eq_error.mp h with hfirst | ⟨v, s₁, hfirst, hrest⟩
    · exact ⟨[], first, rest, last, s, rfl, rfl, hfirst⟩
    · obtain ⟨before, item, after, u, s', rfl, hbefore, hitem⟩ := ih hrest
      refine ⟨first :: before, item, after, u, s', rfl, ?_, hitem⟩
      rw [inOrder, bind_of_ok hfirst]
      exact hbefore

theorem mirrors_each {g : State → State} {items : List ι}
    (h : ∀ before item after vs s', items = before ++ item :: after →
      each step before s = (.ok vs, s') → Mirrors g (step item) (step' item) s') :
    Mirrors g (each step items) (each step' items) s := by
  induction items generalizing s with
  | nil => rfl
  | cons first rest ih =>
    refine mirrors_bind (h [] first rest [] s rfl rfl) fun v s₁ hfirst => mirrors_bind (ih ?_) fun _ _ _ => rfl
    intro before item after vs s' hrest hbefore
    exact h (first :: before) item after (v :: vs) s' (congrArg _ hrest) (each_cons_of_ok hfirst hbefore)

theorem mirrors_inOrder {g : State → State} {items : List ι} {last : Value}
    (h : ∀ before item after v s', items = before ++ item :: after →
      inOrder step last before s = (.ok v, s') → Mirrors g (step item) (step' item) s') :
    Mirrors g (inOrder step last items) (inOrder step' last items) s := by
  induction items generalizing s last with
  | nil => rfl
  | cons first rest ih =>
    refine mirrors_bind (h [] first rest last s rfl rfl) fun v s₁ hfirst => ih ?_
    intro before item after u s' hrest hbefore
    refine h (first :: before) item after u s' (congrArg _ hrest) ?_
    rw [inOrder, bind_of_ok hfirst]
    exact hbefore

theorem each_congr {items : List ι} (rest : List ι) (h : ∀ before item after vs s',
    items ++ rest = before ++ item :: after → each step before s = (.ok vs, s') → step item s' = step' item s') :
    each step items s = each step' items s := by
  have hmirrors : Mirrors id (each step items) (each step' items) s := by
    refine mirrors_each fun before item after vs s' hitems hbefore => ?_
    refine (h before item (after ++ rest) vs s' ?_ hbefore).symm
    rw [hitems, List.append_assoc, List.cons_append]
  exact hmirrors.symm

theorem inOrder_congr {items : List ι} {last : Value} (rest : List ι) (h : ∀ before item after v s',
    items ++ rest = before ++ item :: after → inOrder step last before s = (.ok v, s') → step item s' = step' item s') :
    inOrder step last items s = inOrder step' last items s := by
  have hmirrors : Mirrors id (inOrder step last items) (inOrder step' last items) s := by
    refine mirrors_inOrder fun before item after v s' hitems hbefore => ?_
    refine (h before item (after ++ rest) v s' ?_ hbefore).symm
    rw [hitems, List.append_assoc, List.cons_append]
  exact hmirrors.symm

end

inductive Rounds (test : Run Bool) (body : Run Value) : Nat → State → State → Prop
  | none {s : State} : Rounds test body 0 s s
  | more {k : Nat} {s s₁ s₂ s' : State} {v : Value} (ht : test s = (.ok true, s₁)) (hb : body s₁ = (.ok v, s₂))
      (hrest : Rounds test body k s₂ s') : Rounds test body (k + 1) s s'

section
variable {test test' : Run Bool} {body body' : Run Value} {k bound : Nat}

theorem repeatWhile_of_rounds (h : Rounds test body k s s') :
    repeatWhile test body (k + bound) s = repeatWhile test body bound s' := by
  induction h with
  | none => rw [Nat.zero_add]
  | more ht hb _ ih =>
    rw [Nat.add_right_comm, repeatWhile]
    simp only [ht, hb, ih]

theorem repeatWhile_of_test_error (h : Rounds test body k s s') (hk : k < bound)
    (ht : test s' = (.error why, s'')) : repeatWhile test body bound s = (.error why, s'') := by
  obtain ⟨left, rfl⟩ := Nat.exists_eq_add_of_lt hk
  rw [Nat.add_assoc, repeatWhile_of_rounds h, repeatWhile]
  simp only [ht]

theorem repeatWhile_of_body_error {s₁ : State} (h : Rounds test body k s s') (hk : k < bound)
    (ht : test s' = (.ok true, s₁)) (hb : body s₁ = (.error why, s'')) :
    repeatWhile test body bound s = (.error why, s'') := by
  obtain ⟨left, rfl⟩ := Nat.exists_eq_add_of_lt hk
  rw [Nat.add_assoc, repeatWhile_of_rounds h, repeatWhile]
  simp only [ht, hb]

/-- Rounds of one loop are rounds of another that does the same in each round that it gets to. -/
theorem Rounds.of_congr (h : Rounds test' body' k s s')
    (ht : ∀ j s₁, j < k → Rounds test body j s s₁ → test s₁ = test' s₁)
    (hb : ∀ j s₁ s₂, j < k → Rounds test body j s s₁ → test s₁ = (.ok true, s₂) → body s₂ = body' s₂) :
    Rounds test body k s s' := by
  induction h with
  | none => exact .none
  | @more k s s₁ s₂ s' v htest hbody hrest ih =>
    have htest := (ht 0 s (Nat.succ_pos _) .none).trans htest
    have hbody := (hb 0 s s₁ (Nat.succ_pos _) .none htest).trans hbody
    refine .more htest hbody (ih (fun j s₃ hj h => ?_) fun j s₃ s₄ hj h => ?_)
    · exact ht (j + 1) s₃ (Nat.succ_lt_succ hj) (.more htest hbody h)
    · exact hb (j + 1) s₃ s₄ (Nat.succ_lt_succ hj) (.more htest hbody h)

/-- A loop is stopped by its test, by its body or by having run for all the rounds that it may. -/
theorem repeatWhile_eq_error (h : repeatWhile test body bound s = (.error why, s'')) :
    (∃ k s', k < bound ∧ Rounds test body k s s' ∧ test s' = (.error why, s'')) ∨
      (∃ k s' s₁, k < bound ∧ Rounds test body k s s' ∧ test s' = (.ok true, s₁) ∧ body s₁ = (.error why, s'')) ∨
      why = .interrupted ∧ Rounds test body bound s s'' := by
  induction bound generalizing s with
  | zero =>
    obtain ⟨hwhy, rfl⟩ := Prod.mk.inj h
    exact .inr (.inr ⟨(Except.error.inj hwhy).symm, .none⟩)
  | succ bound ih =>
    rw [repeatWhile] at h
    split at h
    · next s₁ ht =>
      split at h
      · next v s₂ hb =>
        rcases ih h with ⟨k, s', hk, hrounds, hstop⟩ | ⟨k, s', s₃, hk, hrounds, hagain, hstop⟩ | ⟨hwhy, hrounds⟩
        · exact .inl ⟨k + 1, s', Nat.succ_lt_succ hk, .more ht hb hrounds, hstop⟩
        · exact .inr (.inl ⟨k + 1, s', s₃, Nat.succ_lt_succ hk, .more ht hb hrounds, hagain, hstop⟩)
        · exact .inr (.inr ⟨hwhy, .more ht hb hrounds⟩)
      · next stop s₂ hb =>
        obtain ⟨hwhy, rfl⟩ := Prod.mk.inj h
        have hstop : stop = why := Except.error.inj hwhy
        exact .inr (.inl ⟨0, s, s₁, Nat.succ_pos _, .none, ht, hstop ▸ hb⟩)
    · cases h
    · next stop s₁ ht =>
      obtain ⟨hwhy, rfl⟩ := Prod.mk.inj h
      have hstop : stop = why := Except.error.inj hwhy
      exact .inl ⟨0, s, Nat.succ_pos _, .none, hstop ▸ ht⟩

theorem mirrors_repeatWhile {g : State → State}
    (ht : ∀ k s', k < bound → Rounds test body k s s' → Mirrors g test test' s')
    (hb : ∀ k s' s₁, k < bound → Rounds test body k s s' → test s' = (.ok true, s₁) → Mirrors g body body' s₁) :
    Mirrors g (repeatWhile test body bound) (repeatWhile test' body' bound) s := by
  induction bound generalizing s with
  | zero => rfl
  | succ bound ih =>
    have htest := ht 0 s (Nat.succ_pos _) .none
    show repeatWhile test' body' (bound + 1) (g s) =
      ((repeatWhile test body (bound + 1) s).1, g (repeatWhile test body (bound + 1) s).2)
    rw [repeatWhile, repeatWhile]
    rcases hs : test s with ⟨why | b, s₁⟩
    · rw [htest.of_error hs]
    · rw [htest.of_ok hs]
      cases b with
      | false => rfl
      | true =>
        have hbody := hb 0 s s₁ (Nat.succ_pos _) .none hs
        rcases hs₁ : body s₁ with ⟨why | v, s₂⟩
        · simp only [hs₁, hbody.of_error hs₁]
        · simp only [hs₁, hbody.of_ok hs₁]
          refine ih (fun k s' hk h => ?_) fun k s' s'' hk h => ?_
          · exact ht (k + 1) s' (Nat.succ_lt_succ hk) (.more hs hs₁ h)
          · exact hb (k + 1) s' s'' (Nat.succ_lt_succ hk) (.more hs hs₁ h)

end

end Run
end Scriptlet
