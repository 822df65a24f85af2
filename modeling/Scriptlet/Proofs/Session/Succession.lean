import Mathlib
import Scriptlet.Proofs.Evaluation.Visits
import Scriptlet.Proofs.Parsing.Exactness
import Scriptlet.Proofs.Tokens.Joining

/-! Programs one after another.  Two program texts with blanks between them are the text of one program, which has the
statements of both, unless the second starts with a token that carries on the last expression of the first.  Running it
is running the first and then, from the state that this leaves, the second, unless the first stops early. -/
namespace Scriptlet

namespace Grammar
variable {ss ss' : List Node} {w w' : List Token}

theorem not_mem_carriers_of_ofKind?_eq_none {kind : Kind} (h : Suffix.ofKind? kind = none) : kind ∉ carriers := by
  refine not_mem_carriers ?_
  simp only [Strength.ofKind, h, Option.elim_none]
  decide

/-- Statements may follow any others if they do not start with a token that carries an expression on. -/
theorem Yields.statements_append (hss : Yields (.statements ss) w) (hss' : Yields (.statements ss') w')
    (hfirst : ∀ t ∈ w'.head?, t.kind ∉ carriers) : Yields (.statements (ss ++ ss')) (w ++ w') := by
  induction ss generalizing w with
  | nil =>
    cases hss
    exact hss'
  | cons s ss ih =>
    cases hss with
    | @moreStatements _ _ u v hs hrest hend =>
      rw [List.append_assoc]
      refine .moreStatements hs (ih hrest) fun hopen t ht => ?_
      cases v with
      | nil => exact hfirst t ht
      | cons t' v => exact hend hopen t ht

end Grammar

namespace Program
open Grammar Token
variable {first second : String} {ss ss' : List Node}

theorem yields_of_parse {source : String} (h : parse source = .ok (.program ss)) :
    Yields (.statements ss) (ofSource source.toList) := by
  have hyields : Yields (.program (.program ss)) (ofSource source.toList) :=
    (ofTokens_eq_ok_iff_yields (fun _ ht => kind_ne_eof_of_mem_tokens ht) _).mp h
  cases hyields with
  | program hss => exact hss

theorem parse_append (hfirst : parse first = .ok (.program ss)) (hsecond : parse second = .ok (.program ss'))
    (hhead : ∀ t ∈ (ofSource second.toList).head?, Suffix.ofKind? t.kind = none) {gap : String} (hgap : gap ≠ "")
    (hblank : ∀ c ∈ gap.toList, Text.isBlank c) : parse (first ++ gap ++ second) = .ok (.program (ss ++ ss')) := by
  have hyields := yields_of_parse hfirst
  have hlegal : ∀ t ∈ ofSource first.toList, t.kind ≠ .illegal := fun t ht hillegal =>
    hyields.kind_not_mem_unwritten t ht (by simp [hillegal, unwritten])
  have htokens : ofSource (first ++ gap ++ second).toList = ofSource first.toList ++ ofSource second.toList := by
    rw [String.toList_append, String.toList_append, List.append_assoc]
    exact ofSource_append hlegal (by simpa using hgap) hblank _
  have hwhole : Yields (.statements (ss ++ ss')) (ofSource (first ++ gap ++ second).toList) := by
    rw [htokens]
    exact hyields.statements_append (yields_of_parse hsecond)
      fun t ht => not_mem_carriers_of_ofKind?_eq_none (hhead t ht)
  exact (ofTokens_eq_ok_iff_yields (fun _ ht => kind_ne_eof_of_mem_tokens ht) _).mpr (.program hwhole)

end Program

namespace Run
variable {ι : Type} {step : ι → Run Value} {before after : List ι} {last : Value} {s s' : State} {why : Stop}

theorem inOrder_append_of_ok {v : Value} (hbefore : inOrder step last before s = (.ok v, s')) :
    inOrder step last (before ++ after) s = inOrder step v after s' := by
  induction before generalizing last s with
  | nil =>
    obtain ⟨hv, rfl⟩ := Prod.mk.inj hbefore
    rw [Except.ok.inj hv, List.nil_append]
  | cons item before ih =>
    obtain ⟨u, s₁, hitem, hrest⟩ := bind_eq_ok.mp hbefore
    rw [List.cons_append, inOrder, bind_of_ok hitem, ih hrest]

theorem inOrder_append_of_error (hbefore : inOrder step last before s = (.error why, s')) :
    inOrder step last (before ++ after) s = (.error why, s') := by
  obtain ⟨earlier, item, later, v, s₁, rfl, hearlier, hitem⟩ := inOrder_eq_error hbefore
  rw [List.append_assoc, List.cons_append]
  exact inOrder_of_error hearlier hitem

end Run

namespace Eval
open Run

section
variable (settings : Settings) (scope : ScopeId) (body : List Node) (s : State)

/-- A program fails, or a `return` comes out of one of its statements. -/
def Halts : Prop :=
  (∃ why s', eval settings settings.frames scope (.program body) s = (.error why, s')) ∨
    ∃ w v s', Visit.Delimits settings ⟨settings.frames, scope, .program body, s⟩ w ∧
      w.outcome settings = (.error (.returned v), s')

end

abbrev statement (settings : Settings) (scope : ScopeId) : Node → Run Value :=
  inside settings settings.frames (.program []) scope

abbrev ProgramFits (settings : Settings) : Prop := Fits settings settings.frames (.program [])

variable {settings : Settings} {scope : ScopeId} {first second : List Node} {s : State}

theorem eval_program (hfits : ProgramFits settings) (body : List Node) :
    eval settings settings.frames scope (.program body) = endReturn (inOrder (statement settings scope) .null body) :=
  eval_of_fits (n := .program body) hfits

theorem eval_program_of_not_fits (hfull : ¬ProgramFits settings) (body : List Node) :
    eval settings settings.frames scope (.program body) = stop .tooDeep :=
  eval_of_not_fits (n := .program body) hfull

theorem halts_of_not_fits (hfull : ¬ProgramFits settings) : Halts settings scope first s :=
  .inl ⟨.tooDeep, s, congrFun (eval_program_of_not_fits hfull first) s⟩

/-- A program that may start stops early exactly if something stops its statements on their way to the last value. -/
theorem halts_iff (hfits : ProgramFits settings) :
    Halts settings scope first s ↔ ∃ why s', inOrder (statement settings scope) .null first s = (.error why, s') := by
  unfold Halts
  rw [eval_program hfits]
  constructor
  · rintro (⟨why, s', h⟩ | ⟨w, v, s', hdelimits, h⟩)
    · rcases endReturn_eq_error h with ⟨hstop, -⟩ | ⟨v, s₁, hreturned, -⟩
      · exact ⟨why, s', hstop⟩
      · exact ⟨.returned v, s₁, hreturned⟩
    · cases hdelimits with
      | part _ hcatches =>
        cases hcatches with
        | programStmt hbefore => exact ⟨.returned v, s', inOrder_of_error hbefore h⟩
  · rintro ⟨why, s', h⟩
    by_cases hreturned : ∃ v, why = .returned v
    · obtain ⟨v, rfl⟩ := hreturned
      obtain ⟨before, e, after, u, s₁, rfl, hbefore, he⟩ := inOrder_eq_error h
      exact .inr ⟨_, v, s', .part hfits (.programStmt hbefore), he⟩
    · exact .inl ⟨why, s', endReturn_of_error h fun v hv => hreturned ⟨v, hv⟩⟩

theorem run_append_of_not_halts (hsecond : second ≠ []) (h : ¬Halts settings scope first s) :
    run settings scope (.program (first ++ second)) s =
      run settings scope (.program second) (run settings scope (.program first) s).2 := by
  by_cases hfits : ProgramFits settings
  · rw [halts_iff hfits] at h
    rcases hinner : inOrder (statement settings scope) .null first s with ⟨why | v, s'⟩
    · exact absurd ⟨why, s', hinner⟩ h
    · have hfirst : eval settings settings.frames scope (.program first) s = (.ok v, s') := by
        simp only [eval_program hfits, endReturn, hinner]
      -- What the first program gave last does not matter, since the second has a statement.
      have hlast : inOrder (statement settings scope) v second s' = inOrder (statement settings scope) .null second s' := by
        cases second with
        | nil => exact absurd rfl hsecond
        | cons e second => rfl
      have hwhole : eval settings settings.frames scope (.program (first ++ second)) s =
          eval settings settings.frames scope (.program second) s' := by
        simp only [eval_program hfits, endReturn, inOrder_append_of_ok hinner, hlast]
      simp only [run, hfirst, hwhole]
  · exact absurd (halts_of_not_fits hfits) h

theorem run_append_of_halts (h : Halts settings scope first s) (second : List Node) :
    run settings scope (.program (first ++ second)) s = run settings scope (.program first) s := by
  have hwhole : eval settings settings.frames scope (.program (first ++ second)) s =
      eval settings settings.frames scope (.program first) s := by
    by_cases hfits : ProgramFits settings
    · obtain ⟨why, s', hinner⟩ := (halts_iff hfits).mp h
      simp only [eval_program hfits, endReturn, inOrder_append_of_error hinner, hinner]
    · rw [eval_program_of_not_fits hfits, eval_program_of_not_fits hfits]
  simp only [run, hwhole]

theorem enters_program {v : Visit} : Visit.Enters settings ⟨settings.frames, scope, .program first, s⟩ v ↔
    ProgramFits settings ∧ ∃ before e after u s', first = before ++ e :: after ∧
      inOrder (statement settings scope) .null before s = (.ok u, s') ∧
      v = ⟨framesFor settings settings.frames (.program []) e, scope, e, s'⟩ := by
  constructor
  · rintro (hforwards | hdelimits)
    · cases hforwards with
      | part _ hpasses => cases hpasses
    · cases hdelimits with
      | part hfits hcatches =>
        cases hcatches with
        | programStmt hbefore => exact ⟨hfits, _, _, _, _, _, rfl, hbefore, rfl⟩
  · rintro ⟨hfits, before, e, after, u, s', rfl, hbefore, rfl⟩
    exact .inr (.part hfits (.programStmt hbefore))

/-- No statement is reached after those of a program that stops early. -/
theorem enters_append_of_halts (h : Halts settings scope first s) (second : List Node) (v : Visit) :
    Visit.Enters settings ⟨settings.frames, scope, .program (first ++ second), s⟩ v ↔
      Visit.Enters settings ⟨settings.frames, scope, .program first, s⟩ v := by
  simp only [enters_program]
  refine and_congr_right fun hfits => ?_
  obtain ⟨why, s', hinner⟩ := (halts_iff hfits).mp h
  constructor
  · rintro ⟨before, e, after, u, s₁, hbody, hbefore, rfl⟩
    rcases List.append_eq_append_iff.mp hbody with ⟨more, rfl, -⟩ | ⟨more, rfl, hmore⟩
    · rw [inOrder_append_of_error hinner] at hbefore
      cases hbefore
    · cases more with
      | nil =>
        rw [List.append_nil, hbefore] at hinner
        cases hinner
      | cons e' more =>
        obtain ⟨rfl, -⟩ := List.cons.inj hmore
        exact ⟨before, e, more, u, s₁, rfl, hbefore, rfl⟩
  · rintro ⟨before, e, after, u, s₁, rfl, hbefore, rfl⟩
    exact ⟨before, e, after ++ second, u, s₁, by simp, hbefore, rfl⟩

end Eval

namespace Program
open Eval
variable {u u' gap : String} {ss ss' : List Node}

/-- Programs give the same in one text as one after the other. -/
theorem run_in_succession (hparse : parse u = .ok (.program ss)) (hparse' : parse u' = .ok (.program ss'))
    (hstatement : ss' ≠ []) (hhead : ∀ t ∈ (Token.ofSource u'.toList).head?, Suffix.ofKind? t.kind = none)
    (hgap : gap ≠ "") (hblank : ∀ c ∈ gap.toList, Text.isBlank c) :
    parse (u ++ gap ++ u') = .ok (.program (ss ++ ss')) ∧
      ∀ settings scope s,
        (¬Halts settings scope ss s →
          run settings scope (.program (ss ++ ss')) s =
            run settings scope (.program ss') (run settings scope (.program ss) s).2) ∧
        (Halts settings scope ss s →
          run settings scope (.program (ss ++ ss')) s = run settings scope (.program ss) s ∧
            ∀ v, Visit.Enters settings ⟨settings.frames, scope, .program (ss ++ ss'), s⟩ v ↔
              Visit.Enters settings ⟨settings.frames, scope, .program ss, s⟩ v) :=
  ⟨parse_append hparse hparse' hhead hgap hblank, fun _ _ _ =>
    ⟨fun h => run_append_of_not_halts hstatement h, fun h => ⟨run_append_of_halts h ss', enters_append_of_halts h ss'⟩⟩⟩

set_option maxRecDepth 8000 in
/-- After a binding the second program reads the name; after a `return` it does not run. -/
theorem name_in_succession :
    parse "let x = 1" = .ok (.program [.letStmt "x" (.int 1)]) ∧
      parse "return 7" = .ok (.program [.returnStmt (.int 7)]) ∧
      parse "x" = .ok (.program [.exprStmt (.ident "x")]) ∧
      (∀ t ∈ (Token.ofSource "x".toList).head?, Suffix.ofKind? t.kind = none) ∧
      parse ("let x = 1" ++ "\n" ++ "x") = .ok (.program [.letStmt "x" (.int 1), .exprStmt (.ident "x")]) ∧
      (run ⟨.null, .flat, 9, 9⟩ 0 (.program [.letStmt "x" (.int 1), .exprStmt (.ident "x")]) .initial).1 = .value (.int 1) ∧
      (run ⟨.null, .flat, 9, 9⟩ 0 (.program [.returnStmt (.int 7), .exprStmt (.ident "x")]) .initial).1 =
        .value (.int 7) := by
  have hlet : parse "let x = 1" = .ok (.program [.letStmt "x" (.int 1)]) := by cbv
  have hreturn : parse "return 7" = .ok (.program [.returnStmt (.int 7)]) := by cbv
  have htokens : Token.ofSource "x".toList = [⟨.identifier, "x"⟩] := by cbv
  have hsecond : parse "x" = .ok (.program [.exprStmt (.ident "x")]) := by
    rw [parse, htokens]
    rfl
  have hhead : ∀ t ∈ (Token.ofSource "x".toList).head?, Suffix.ofKind? t.kind = none := by
    rw [htokens]
    rintro t ⟨⟩
    rfl
  have hgap : "\n" ≠ "" := by decide
  have hblank : ∀ c ∈ "\n".toList, Text.isBlank c := List.all_eq_true.mp rfl
  obtain ⟨hparse, hlets⟩ := run_in_succession hlet hsecond (List.cons_ne_nil _ _) hhead hgap hblank
  obtain ⟨-, hreturns⟩ := run_in_succession hreturn hsecond (List.cons_ne_nil _ _) hhead hgap hblank
  have hfits : ProgramFits ⟨.null, .flat, 9, 9⟩ := by decide
  have hgoes : ¬Halts ⟨.null, .flat, 9, 9⟩ 0 [.letStmt "x" (.int 1)] .initial := by
    rw [halts_iff hfits]
    rintro ⟨why, s', h⟩
    have hgives : (Run.inOrder (statement ⟨.null, .flat, 9, 9⟩ 0) .null [.letStmt "x" (.int 1)] .initial).1 = .ok .null := by
      cbv
    rw [h] at hgives
    cases hgives
  have hstops : Halts ⟨.null, .flat, 9, 9⟩ 0 [.returnStmt (.int 7)] .initial := by
    refine (halts_iff hfits).mpr ⟨.returned (.int 7), .initial, ?_⟩
    cbv
  have hafter := (hlets ⟨.null, .flat, 9, 9⟩ 0 .initial).1 hgoes
  have halone := ((hreturns ⟨.null, .flat, 9, 9⟩ 0 .initial).2 hstops).1
  refine ⟨hlet, hreturn, hsecond, hhead, hparse, ?_, ?_⟩
  · exact (congrArg Prod.fst hafter).trans (by cbv)
  · exact (congrArg Prod.fst halone).trans (by cbv)

end Program
end Scriptlet
