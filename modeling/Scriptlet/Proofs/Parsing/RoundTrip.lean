import Mathlib
import Scriptlet.Proofs.Parsing.Forms
import Scriptlet.Proofs.Parsing.Trees
import Scriptlet.Proofs.Tokens.Writing

/-! Reading a tree back from its text.  The text of an expression puts each operator into parentheses of its own, so it
is written with the tokens of a tightest expression, and the grammar takes these for the same tree again.  Only where
statements stand side by side, or where a `let` or a `return` loses its word, does the text say less than the tree. -/
namespace Scriptlet

namespace Node

/-- Statements that their texts show as they are written. -/
def isBare : Node → Bool
  | exprStmt _ | whileStmt _ _ => true
  | _ => false

/-- A block holds at most one statement, and that is such a statement. -/
def isShort : Node → Bool
  | block body => body.length ≤ 1 && body.all isBare
  | _ => true

end Node

namespace Operator
open Token Grammar
variable {op : Operator} {c : Char}

theorem spells_symbol {kind : Kind} (h : Kind.ofSymbol? c = some kind) (hop : op.symbol.toList = [c]) :
    Spells ⟨kind, .singleton c⟩ op.symbol.toList fun _ => false := hop ▸ .symbol h

theorem spells_alone {e : Kind.Extension} (h : Kind.extension? c = some e) (hop : op.symbol.toList = [c]) :
    Spells ⟨e.alone, .singleton c⟩ op.symbol.toList (· = e.second) := hop ▸ .alone h

theorem spells_both {e : Kind.Extension} (h : Kind.extension? c = some e) (hop : op.symbol.toList = [c, e.second]) :
    Spells ⟨e.both, .ofList [c, e.second]⟩ op.symbol.toList fun _ => false := hop ▸ .both h

/-- An operator before an operand is carried on by a minus or an equals sign at most. -/
theorem exists_spells_of_leading (hop : op ∈ [minus, neg]) : ∃ t more,
    (t.kind, op) ∈ signs ∧ Spells t op.symbol.toList more ∧ ∀ c, c ≠ '-' → c ≠ '=' → more c = false := by
  simp only [List.mem_cons, List.not_mem_nil, or_false] at hop
  rcases hop with rfl | rfl
  · exact ⟨_, _, by decide, spells_alone (c := '-') rfl rfl, fun c hminus _ => decide_eq_false hminus⟩
  · exact ⟨_, _, by decide, spells_alone (c := '!') rfl rfl, fun c _ hequals => decide_eq_false hequals⟩

theorem exists_spells_of_closing (hop : op ∈ [increment, decrement]) : ∃ t c,
    (t.kind, op) ∈ Grammar.steps ∧ op.symbol.toList = [c, c] ∧ c ∈ marks ∧ Spells t [c, c] fun _ => false := by
  simp only [List.mem_cons, List.not_mem_nil, or_false] at hop
  rcases hop with rfl | rfl
  · exact ⟨_, '+', by decide, rfl, by decide, .both (e := ⟨.plus, '+', .increment⟩) rfl⟩
  · exact ⟨_, '-', by decide, rfl, by decide, .both (e := ⟨.minus, '-', .decrement⟩) rfl⟩

theorem exists_spells_of_infix (hop : op ∈ [plus, minus, asterisk, slash, lt, gt, eq, neq, lteq, gteq]) :
    ∃ (level : Level) (t : Token) (more : Char → Bool),
      (t.kind, op) ∈ level.operators ∧ Spells t op.symbol.toList more ∧ more ' ' = false := by
  simp only [List.mem_cons, List.not_mem_nil, or_false] at hop
  rcases hop with rfl | rfl | rfl | rfl | rfl | rfl | rfl | rfl | rfl | rfl
  · exact ⟨.summation, _, _, by decide, spells_alone (c := '+') rfl rfl, by decide⟩
  · exact ⟨.summation, _, _, by decide, spells_alone (c := '-') rfl rfl, by decide⟩
  · exact ⟨.multiplication, _, _, by decide, spells_symbol (c := '*') rfl rfl, by decide⟩
  · exact ⟨.multiplication, _, _, by decide, spells_symbol (c := '/') rfl rfl, by decide⟩
  · exact ⟨.comparison, _, _, by decide, spells_alone (c := '<') rfl rfl, by decide⟩
  · exact ⟨.comparison, _, _, by decide, spells_alone (c := '>') rfl rfl, by decide⟩
  · exact ⟨.comparison, _, _, by decide, spells_both (c := '=') rfl rfl, by decide⟩
  · exact ⟨.comparison, _, _, by decide, spells_both (c := '!') rfl rfl, by decide⟩
  · exact ⟨.comparison, _, _, by decide, spells_both (c := '<') rfl rfl, by decide⟩
  · exact ⟨.comparison, _, _, by decide, spells_both (c := '>') rfl rfl, by decide⟩

end Operator

namespace Grammar
open Token

def Renders (p : Phrase) (cs : List Char) : Prop := ∃ w, Yields p w ∧ Writes cs w

def Opens (cs : List Char) : Prop := ∃ c rest, cs = c :: rest ∧ c ≠ '-' ∧ c ≠ '='

section
variable {cs cs' cs'' : List Char} {e l r b : Node} {op : Operator}

theorem Opens.append (h : Opens cs) (cs' : List Char) : Opens (cs ++ cs') := by
  obtain ⟨c, rest, rfl, hminus, hequals⟩ := h
  exact ⟨c, rest ++ cs', rfl, hminus, hequals⟩

theorem opens_cons {c : Char} (hminus : c ≠ '-') (hequals : c ≠ '=') : Opens (c :: cs) :=
  ⟨c, cs, rfl, hminus, hequals⟩

theorem opens_of_class {p : Char → Bool} {c : Char} (hc : p c) (hminus : p '-' = false) (hequals : p '=' = false) :
    Opens (c :: cs) := by
  refine opens_cons ?_ ?_
  · rintro rfl
    simp [hc] at hminus
  · rintro rfl
    simp [hc] at hequals

theorem opens_word (h : IsWord cs) : Opens cs := by
  cases cs with
  | nil => cases h
  | cons c cs => exact opens_of_class h.1 (by decide) (by decide)

theorem opens_keyword {word : String} (h : word ∈ Kind.keywords.map (·.1)) : Opens (word.toList ++ cs) := by
  obtain ⟨entry, hentry, rfl⟩ := List.mem_map.mp h
  exact (opens_word (isWord_of_mem_keywords hentry).1).append cs

theorem opens_int (n : Nat) : Opens (Nat.toDigits 10 n) := by
  obtain ⟨c, cs, hcs⟩ := List.exists_cons_of_ne_nil (Nat.toDigits_ne_nil (n := n) (b := 10))
  have hc : c.isDigit := isDigit_of_mem_toDigits (n := n) (by simp [hcs])
  rw [hcs]
  exact opens_of_class hc (by decide) (by decide)

theorem isLiteral_repr {n : Nat} (hn : n ≤ 2147483647) : IsLiteral n.repr n := by
  refine ⟨?_, ?_, hn⟩
  · rw [Nat.toList_repr]
    have hlength : (Nat.toDigits 10 n).length ≤ 10 := by
      rw [Nat.length_toDigits_le_iff (by decide) (by decide)]
      omega
    omega
  · rw [Nat.toList_repr]
    exact decimalValue?_toDigits n

theorem renders_ident {x : String} (hx : IsName x) : Renders (.expression .chain (.ident x)) x.toList :=
  ⟨_, .lift (.ident (t := ⟨.identifier, x⟩) rfl), writes_name hx⟩

theorem renders_int {n : Nat} (hn : n ≤ 2147483647) : Renders (.expression .chain (.int n)) (Nat.toDigits 10 n) :=
  ⟨_, .lift (.int (t := ⟨.int, n.repr⟩) rfl (isLiteral_repr hn)), writes_int n⟩

theorem renders_bool (b : Bool) : Renders (.expression .chain (.bool b)) (Node.bool b).text.toList := by
  cases b with
  | true => exact ⟨_, .lift (.trueWord (t := ⟨.trueWord, "true"⟩) rfl), .single (spells_keyword (by decide)) fun _ h => h⟩
  | false =>
    exact ⟨_, .lift (.falseWord (t := ⟨.falseWord, "false"⟩) rfl), .single (spells_keyword (by decide)) fun _ h => h⟩

theorem renders_str {x : String} (hx : '"' ∉ x.toList) :
    Renders (.expression .chain (.str x)) ('"' :: (x.toList ++ ['"'])) :=
  ⟨_, .lift (.str (t := ⟨.string, x⟩) rfl), writes_string hx⟩

theorem renders_items {ι : Type} {phrase : ι → Phrase} {text : ι → List Char} {items : List ι}
    (h : ∀ item ∈ items, Renders (phrase item) (text item)) :
    Renders (.items (items.map phrase)) (List.intercalate [','] (items.map text)) := by
  induction items with
  | nil => exact ⟨[], .noItems, .nil⟩
  | cons first others ih =>
    obtain ⟨w, hfirst, hwrites⟩ := h first List.mem_cons_self
    cases others with
    | nil => exact ⟨w, .lastItem hfirst, by simpa using hwrites⟩
    | cons second others =>
      obtain ⟨w', hothers, hwrites'⟩ := ih fun item hitem => h item (List.mem_cons_of_mem first hitem)
      refine ⟨_, .moreItems (t := ⟨.comma, .singleton ','⟩) rfl hfirst hothers, ?_⟩
      have hcomma := hwrites.append_symbol (c := ',') rfl hwrites'
      simpa using hcomma

theorem renders_expressions {es : List Node} (h : ∀ e ∈ es, Renders (.expression .chain e) e.text.toList) :
    Renders (.items (es.map (.expression .comparison))) (List.intercalate [','] (es.map (·.text.toList))) := by
  refine renders_items fun e he => ?_
  obtain ⟨w, hyields, hwrites⟩ := h e he
  exact ⟨w, hyields.weaken (by decide), hwrites⟩

theorem renders_names {xs : List String} (h : ∀ x ∈ xs, IsName x) :
    Renders (.items (xs.map .name)) (List.intercalate [','] (xs.map String.toList)) :=
  renders_items fun x hx => ⟨_, .name (t := ⟨.identifier, x⟩) rfl, writes_name (h x hx)⟩

theorem renders_condition (he : Renders (.expression .chain e) cs) : Renders (.condition e) ('(' :: (cs ++ [')'])) := by
  obtain ⟨w, hyields, hwrites⟩ := he
  exact ⟨_, .condition rfl rfl (hyields.weaken (by decide)), .symbol rfl (hwrites.append_symbol rfl .nil)⟩

theorem renders_group {w : List Token} (he : Yields (.expression .comparison e) w)
    (hcs : Writes (cs ++ [')']) (w ++ [⟨.rparen, .singleton ')'⟩])) :
    Renders (.expression .chain e) ('(' :: (cs ++ [')'])) :=
  ⟨_, .lift (.group (o := ⟨.lparen, .singleton '('⟩) rfl rfl he), .symbol rfl hcs⟩

theorem renders_prefixOp (hop : op ∈ [.minus, .neg]) (he : Renders (.expression .chain e) cs) (hopens : Opens cs) :
    Renders (.expression .chain (.prefixOp op e)) ('(' :: (op.symbol.toList ++ (cs ++ [')']))) := by
  obtain ⟨w, hyields, hwrites⟩ := he
  obtain ⟨t, more, hsign, hspells, hmore⟩ := op.exists_spells_of_leading hop
  obtain ⟨c, rest, rfl, hminus, hequals⟩ := hopens
  have hprefixed : Yields (.expression .comparison (.prefixOp op e)) (t :: w) :=
    (Yields.sign hsign (hyields.weaken (by decide))).weaken (by decide)
  have hclosed := hwrites.append_symbol (c := ')') rfl .nil
  rw [← List.append_assoc]
  refine renders_group hprefixed ?_
  simpa using Writes.cons hspells (hmore c hminus hequals) hclosed

theorem renders_infixOp (hop : op ∈ [.plus, .minus, .asterisk, .slash, .lt, .gt, .eq, .neq, .lteq, .gteq])
    (hl : Renders (.expression .chain l) cs) (hr : Renders (.expression .chain r) cs') :
    Renders (.expression .chain (.infixOp op l r))
      ('(' :: ((cs ++ ' ' :: (op.symbol.toList ++ ' ' :: cs')) ++ [')'])) := by
  obtain ⟨w, hyields, hwrites⟩ := hl
  obtain ⟨w', hyields', hwrites'⟩ := hr
  obtain ⟨level, t, more, hlevel, hspells, hmore⟩ := op.exists_spells_of_infix hop
  have hle : level.rank ≤ Level.chain.rank ∧ level.next.rank ≤ Level.chain.rank := by
    cases level <;> first | decide | simp [Level.operators] at hlevel
  have hbinary : Yields (.expression .comparison (.infixOp op l r)) (w ++ t :: w') :=
    (Yields.binary hlevel (hyields.weaken hle.1) (hyields'.weaken hle.2)).weaken (Nat.zero_le _)
  have hright := (hwrites'.append_symbol (c := ')') rfl .nil).space
  refine renders_group hbinary ?_
  simpa using hwrites.append_space (Writes.cons hspells hmore hright)

theorem renders_postfixOp (hop : op ∈ [.increment, .decrement]) (he : Renders (.expression .chain e) cs) :
    Renders (.expression .chain (.postfixOp op e)) ('(' :: ((cs ++ op.symbol.toList) ++ [')'])) := by
  obtain ⟨w, hyields, hwrites⟩ := he
  obtain ⟨t, c, hstep, hsymbol, hc, hspells⟩ := op.exists_spells_of_closing hop
  have hstepped : Yields (.expression .comparison (.postfixOp op e)) (w ++ [t]) :=
    (Yields.step hstep hyields).weaken (by decide)
  have hclosed : Writes [c, c, ')'] [t, ⟨.rparen, .singleton ')'⟩] := .cons hspells rfl (.symbol rfl .nil)
  have hhead : continuesWord c = false := continuesWord_eq_false_of_mem_marks hc
  rw [hsymbol]
  refine renders_group hstepped ?_
  simpa using hwrites.append hclosed (by simpa using hhead)

theorem renders_call {args : List Node} (hcallable : l.isCallable) (hl : Renders (.expression .chain l) cs)
    (hargs : Renders (.items (args.map (.expression .comparison))) cs') :
    Renders (.expression .chain (.call l args)) (cs ++ '(' :: (cs' ++ [')'])) := by
  obtain ⟨w, hyields, hwrites⟩ := hl
  obtain ⟨w', hyields', hwrites'⟩ := hargs
  exact ⟨_, .call hcallable rfl rfl hyields hyields', hwrites.append_symbol rfl (hwrites'.append_symbol rfl .nil)⟩

theorem renders_index (hindexable : l.isIndexable) (hl : Renders (.expression .chain l) cs)
    (hr : Renders (.expression .chain r) cs') :
    Renders (.expression .chain (.index l r)) (cs ++ '[' :: (cs' ++ [']'])) := by
  obtain ⟨w, hyields, hwrites⟩ := hl
  obtain ⟨w', hyields', hwrites'⟩ := hr
  exact ⟨_, .index hindexable rfl rfl hyields (hyields'.weaken (by decide)),
    hwrites.append_symbol rfl (hwrites'.append_symbol rfl .nil)⟩

theorem renders_array {es : List Node} (hes : Renders (.items (es.map (.expression .comparison))) cs) :
    Renders (.expression .chain (.array es)) ('[' :: (cs ++ [']'])) := by
  obtain ⟨w, hyields, hwrites⟩ := hes
  exact ⟨_, .lift (.array rfl rfl hyields), .symbol rfl (hwrites.append_symbol rfl .nil)⟩

theorem renders_ifThen (hc : Renders (.condition e) cs) (hy : Renders (.block b) cs') :
    Renders (.expression .chain (.ifThen e b)) ("if".toList ++ ' ' :: (cs ++ ' ' :: cs')) := by
  obtain ⟨w, hyields, hwrites⟩ := hc
  obtain ⟨w', hyields', hwrites'⟩ := hy
  refine ⟨_, .lift (.ifThen (t := ⟨.ifWord, "if"⟩) rfl hyields hyields'), ?_⟩
  exact .keyword (by decide) (hwrites.append_space hwrites')

theorem renders_ifElse {n : Node} (hc : Renders (.condition e) cs) (hy : Renders (.block b) cs')
    (hn : Renders (.block n) cs'') :
    Renders (.expression .chain (.ifElse e b n))
      ("if".toList ++ ' ' :: (cs ++ ' ' :: (cs' ++ ' ' :: ("else".toList ++ ' ' :: cs'')))) := by
  obtain ⟨w, hyields, hwrites⟩ := hc
  obtain ⟨w', hyields', hwrites'⟩ := hy
  obtain ⟨w'', hyields'', hwrites''⟩ := hn
  refine ⟨_, .lift (.ifElse (t := ⟨.ifWord, "if"⟩) (u := ⟨.elseWord, "else"⟩) rfl rfl hyields hyields' hyields''), ?_⟩
  have helse : Writes ("else".toList ++ ' ' :: cs'') (⟨.elseWord, "else"⟩ :: w'') := .keyword (by decide) hwrites''
  exact .keyword (by decide)
    (hwrites.append_space (hwrites'.append_space helse))

theorem renders_fn {params : List String} (hparams : Renders (.items (params.map .name)) cs)
    (hb : Renders (.block b) cs') :
    Renders (.expression .chain (.fn params b)) ("fn".toList ++ '(' :: (cs ++ ')' :: ' ' :: cs')) := by
  obtain ⟨w, hyields, hwrites⟩ := hparams
  obtain ⟨w', hyields', hwrites'⟩ := hb
  refine ⟨_, .lift (.fn (t := ⟨.fnWord, "fn"⟩) (o := ⟨.lparen, .singleton '('⟩) (c := ⟨.rparen, .singleton ')'⟩) rfl rfl rfl
    hyields hyields'), ?_⟩
  have hbody := hwrites.append_symbol (c := ')') rfl hwrites'.space
  exact .cons (spells_keyword (by decide)) (by decide) (.symbol rfl hbody)

theorem renders_whileStmt (hc : Renders (.condition e) cs) (hb : Renders (.block b) cs') :
    Renders (.statement (.whileStmt e b)) ("while".toList ++ ' ' :: (cs ++ ' ' :: cs')) := by
  obtain ⟨w, hyields, hwrites⟩ := hc
  obtain ⟨w', hyields', hwrites'⟩ := hb
  refine ⟨_, .whileStmt (t := ⟨.whileWord, "while"⟩) rfl hyields hyields', ?_⟩
  exact .keyword (by decide) (hwrites.append_space hwrites')

theorem renders_exprStmt (he : Renders (.expression .chain e) cs) :
    Renders (.statement (.exprStmt e)) ('(' :: (cs ++ [')'])) := by
  obtain ⟨w, hyields, hwrites⟩ := he
  obtain ⟨w', hyields', hwrites'⟩ :=
    renders_group (hyields.weaken (by decide)) (hwrites.append_symbol (c := ')') rfl .nil)
  exact ⟨w', .exprStmt (hyields'.weaken (by decide)), hwrites'⟩

theorem renders_emptyBlock : Renders (.block (.block [])) ['\x7b', ' ', ' ', '\x7d'] :=
  ⟨_, .block rfl rfl .noStatements,
    .symbol rfl (.space (.space (.symbol rfl .nil)))⟩

theorem renders_block {s : Node} (hs : Renders (.statement s) cs) :
    Renders (.block (.block [s])) ('\x7b' :: ' ' :: (cs ++ ' ' :: ['\x7d'])) := by
  obtain ⟨w, hyields, hwrites⟩ := hs
  have hone : Yields (.statements [s]) (w ++ []) := .moreStatements hyields .noStatements (by simp)
  rw [List.append_nil] at hone
  exact ⟨_, .block rfl rfl hone,
    .symbol rfl (.space (hwrites.append_space (.symbol rfl .nil)))⟩

end

/-- The text of a well-formed node in a place writes it, as far as its text is all there is to it. -/
def Rendered : Place → Node → Prop
  | .expression, e => Renders (.expression .chain e) e.text.toList ∧ Opens e.text.toList
  | .block, b => Renders (.block b) b.text.toList
  | .statement, s => s.isBare → Renders (.statement s) s.text.toList
  | .program, _ => True

theorem rendered_expression {e : Node} {cs : List Char} (h : Renders (.expression .chain e) cs) (hopens : Opens cs)
    (htext : e.text.toList = cs) : Rendered .expression e := by
  subst htext
  exact ⟨h, hopens⟩

theorem rendered_block {body : List Node} (hshort : (Node.block body).isShort)
    (hbody : ∀ s ∈ body, Rendered .statement s) : Rendered .block (.block body) := by
  simp only [Node.isShort, Bool.and_eq_true, decide_eq_true_eq] at hshort
  obtain ⟨hlength, hbare⟩ := hshort
  match body with
  | [] =>
    simpa [Rendered, Node.text] using renders_emptyBlock
  | [s] =>
    have hs := renders_block (hbody s List.mem_cons_self (List.all_eq_true.mp hbare s List.mem_cons_self))
    simpa [Rendered, Node.text] using hs
  | _ :: _ :: _ => simp at hlength

/-- The text of a well-formed node in which blocks are short writes the node. -/
theorem rendered_of_formed {place : Place} {n : Node} (h : n.Formed place)
    (hshort : n.Everywhere fun m => m.isShort) : Rendered place n := by
  induction h with
  | program _ _ => trivial
  | block _ ih =>
    exact rendered_block hshort.here fun s hs => ih s hs (hshort.child hs)
  | letStmt _ _ _ | returnStmt _ _ => exact fun hbare => by cases hbare
  | exprStmt _ ih =>
    intro _
    obtain ⟨he, -⟩ := ih (hshort.child (by simp [Node.children]))
    simpa [Node.text] using renders_exprStmt he
  | whileStmt _ _ ihc ihb =>
    intro _
    obtain ⟨hc, -⟩ := ihc (hshort.child (by simp [Node.children]))
    have hb := ihb (hshort.child (by simp [Node.children]))
    simpa [Node.text] using renders_whileStmt (renders_condition hc) hb
  | ident hx => exact ⟨renders_ident hx, opens_word hx.1⟩
  | @int n hpos hmax =>
    obtain ⟨m, rfl⟩ := Int.eq_ofNat_of_zero_le hpos
    exact rendered_expression (renders_int (Int.ofNat_le.mp hmax)) (opens_int m) Nat.toList_repr
  | @bool b =>
    refine ⟨renders_bool b, ?_⟩
    cases b <;> exact opens_word (by decide)
  | @str x hx =>
    exact rendered_expression (renders_str hx) (opens_cons (by decide) (by decide)) (by simp [Node.text])
  | prefixOp hop _ ih =>
    obtain ⟨he, hopens⟩ := ih (hshort.child (by simp [Node.children]))
    exact rendered_expression (renders_prefixOp hop he hopens) (opens_cons (by decide) (by decide))
      (by simp [Node.text])
  | infixOp hop _ _ ihl ihr =>
    obtain ⟨hl, -⟩ := ihl (hshort.child (by simp [Node.children]))
    obtain ⟨hr, -⟩ := ihr (hshort.child (by simp [Node.children]))
    exact rendered_expression (renders_infixOp hop hl hr) (opens_cons (by decide) (by decide)) (by simp [Node.text])
  | postfixOp hop _ ih =>
    obtain ⟨he, -⟩ := ih (hshort.child (by simp [Node.children]))
    exact rendered_expression (renders_postfixOp hop he) (opens_cons (by decide) (by decide)) (by simp [Node.text])
  | ifThen _ _ ihc ihy =>
    obtain ⟨hc, -⟩ := ihc (hshort.child (by simp [Node.children]))
    have hy := ihy (hshort.child (by simp [Node.children]))
    exact rendered_expression (renders_ifThen (renders_condition hc) hy) (opens_keyword (by decide))
      (by simp [Node.text])
  | ifElse _ _ _ ihc ihy ihn =>
    obtain ⟨hc, -⟩ := ihc (hshort.child (by simp [Node.children]))
    have hy := ihy (hshort.child (by simp [Node.children]))
    have hn := ihn (hshort.child (by simp [Node.children]))
    exact rendered_expression (renders_ifElse (renders_condition hc) hy hn) (opens_keyword (by decide))
      (by simp [Node.text])
  | fn hparams _ ihb =>
    have hb := ihb (hshort.child (by simp [Node.children]))
    exact rendered_expression (renders_fn (renders_names hparams) hb) (opens_keyword (by decide)) (by simp [Node.text])
  | call hcallable _ _ ihf ihargs =>
    obtain ⟨hf, hopens⟩ := ihf (hshort.child (by simp [Node.children]))
    have hargs := renders_expressions fun e he => (ihargs e he (hshort.child (by simp [Node.children, he]))).1
    exact rendered_expression (renders_call hcallable hf hargs) (hopens.append _)
      (by simp [Node.text, Function.comp_def])
  | array _ ih =>
    have hes := renders_expressions fun e he => (ih e he (hshort.child he)).1
    exact rendered_expression (renders_array hes) (opens_cons (by decide) (by decide))
      (by simp [Node.text, Function.comp_def])
  | index hindexable _ _ ihe ihi =>
    obtain ⟨he, hopens⟩ := ihe (hshort.child (by simp [Node.children]))
    obtain ⟨hi, -⟩ := ihi (hshort.child (by simp [Node.children]))
    exact rendered_expression (renders_index hindexable he hi) (hopens.append _) (by simp [Node.text])

/-- Statements that stand in some program, show what they are and hold short blocks only. -/
structure Restorable (s : Node) : Prop where
  parsed : ∃ source n, Program.parse source = .ok n ∧ n.Inside s
  bare : s.isBare
  short : s.Everywhere fun m => m.isShort

theorem trim_text {s : Node} (h : s.Formed .statement) (hbare : s.isBare) :
    Text.trim s.text.toList = s.text.toList := by
  cases h with
  | letStmt _ _ | returnStmt _ => cases hbare
  | @exprStmt e _ =>
    have htext : (Node.exprStmt e).text.toList = '(' :: (e.text.toList ++ [')']) := by simp [Node.text]
    rw [htext, Text.trim_enclosed (by decide) (by decide)]
  | @whileStmt c b _ hb =>
    cases hb with
    | @block body _ =>
      have htext : (Node.whileStmt c (.block body)).text.toList = 'w' :: ("hile (".toList ++ c.text.toList ++
          ") \x7b ".toList ++ (" ; ".intercalate (body.map Node.text)).toList ++ [' '] ++ ['\x7d']) := by
        simp [Node.text]
      rw [htext, Text.trim_enclosed (by decide) (by decide)]

theorem Restorable.formed {s : Node} (h : Restorable s) : s.Formed .statement := by
  obtain ⟨source, n, hparse, hinside⟩ := h.parsed
  obtain ⟨place, hformed⟩ := (formed_of_parse hparse).inside hinside
  have hbare := h.bare
  cases hformed with
  | exprStmt he => exact .exprStmt he
  | whileStmt hc hb => exact .whileStmt hc hb
  | _ => cases hbare

theorem Restorable.parse_text {s : Node} (h : Restorable s) : Program.parse s.text = .ok (.program [s]) := by
  obtain ⟨w, hyields, hwrites⟩ := rendered_of_formed h.formed h.short h.bare
  have hone : Yields (.program (.program [s])) (w ++ []) := .program (.moreStatements hyields .noStatements (by simp))
  have htokens : ofSource s.text.toList = w ++ [] := by
    rw [ofSource, trim_text h.formed h.bare, hwrites.tokens_eq, List.append_nil]
  rw [← htokens] at hone
  exact (ofTokens_eq_ok_iff_yields (fun _ ht => kind_ne_eof_of_mem_tokens ht) _).mpr hone

/-- The text of a statement parses to a program of this statement alone, if it is one of a parsed program and neither it
nor the blocks in it hold more than statements show that stand alone.  So different such statements have different
texts, although grouping parentheses are not kept. -/
theorem statement_texts_round_trip {s : Node} (h : Restorable s) :
    Program.parse s.text = .ok (.program [s]) ∧ ∀ s', Restorable s' → s'.text = s.text → s' = s := by
  refine ⟨h.parse_text, fun s' h' htext => ?_⟩
  have hparse := h'.parse_text
  rw [htext, h.parse_text] at hparse
  simpa using hparse.symm

def difference : Node := .infixOp .minus (.prefixOp .minus (.int 1)) (.ident "x")

def negatingLoop : Node := .whileStmt (.bool true) (.block [.exprStmt (.prefixOp .minus difference)])

set_option maxRecDepth 8000 in
theorem negatingLoop_round_trips :
    Restorable negatingLoop ∧ negatingLoop.text = "while (true) \x7b ((-((-1) - x))) \x7d" ∧
      Program.parse "while (true) \x7b ((-((-1) - x))) \x7d" = .ok (.program [negatingLoop]) := by
  have hone : (Node.prefixOp .minus (.int 1)).Everywhere fun m => m.isShort :=
    .intro rfl (by simpa [Node.children] using .intro rfl (by simp [Node.children]))
  have hdifference : difference.Everywhere fun m => m.isShort :=
    .intro rfl (by simpa [difference, Node.children] using ⟨hone, .intro rfl (by simp [Node.children])⟩)
  have hstatement : (Node.exprStmt (.prefixOp .minus difference)).Everywhere fun m => m.isShort :=
    .intro rfl (by simpa [Node.children] using .intro rfl (by simpa [Node.children] using hdifference))
  have hbody : (Node.block [.exprStmt (.prefixOp .minus difference)]).Everywhere fun m => m.isShort :=
    .intro rfl (by simpa [Node.children] using hstatement)
  have hshort : negatingLoop.Everywhere fun m => m.isShort :=
    .intro rfl (by simpa [negatingLoop, Node.children] using ⟨.intro rfl (by simp [Node.children]), hbody⟩)
  have hparsed : Program.parse "while (true) \x7b -(-1 - x) \x7d" = .ok (.program [negatingLoop]) := by cbv
  have hloop : Restorable negatingLoop := ⟨⟨_, _, hparsed, .child .refl (by simp [Node.children])⟩, rfl, hshort⟩
  have htext : negatingLoop.text = "while (true) \x7b ((-((-1) - x))) \x7d" := by cbv
  exact ⟨hloop, htext, htext ▸ (statement_texts_round_trip hloop).1⟩

end Grammar
end Scriptlet
