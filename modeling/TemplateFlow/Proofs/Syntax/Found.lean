import TemplateFlow.Proofs.Syntax.Follow
import TemplateFlow.Proofs.Syntax.Level

/-!
# What the words of the grammar find

Each token, operator and opening of a link is found where it is written, provided that the text
after it does not lengthen it, and refused where something else stands. Where several rules are
tried in turn the earlier ones are refused: numbers and strings before keywords, literals before
identifiers, longer symbols before shorter ones.

An operator is found at its own level only (`finds_operator`, `refuses_operator`), and the question
mark of a ternary only where an expression follows (`finds_questionMark`, `refuses_branches`).
-/

namespace TemplateFlow

namespace Syntax

open Rule

/-! ## Tokens -/

/-- The blanks after a word do not lengthen it either. -/
theorem Token.name_append {w s rest : List Char} (h : Token w s) (hr : StopsAt isNamePart rest) :
    ∃ t, s ++ rest = w ++ t ∧ StopsAt isNamePart t := by
  obtain ⟨blanks, hb, rfl⟩ := h
  exact ⟨blanks ++ rest, List.append_assoc _ _ _,
    hr.blanks_append (fun _ => isNamePart_of_isBlank) hb⟩

/-- The token of a name begins as the name does. -/
theorem Token.exists_cons {w s : List Char} (h : Token w s) (hw : IsName w) :
    ∃ c t, s = c :: t ∧ isNameStart c = true := by
  obtain ⟨c, t, rfl, hc, -⟩ := hw
  obtain ⟨blanks, -, rfl⟩ := h
  exact ⟨c, t ++ blanks, rfl, hc⟩

/-- A name is found where the text behind it does not continue it. -/
theorem finds_name {w s rest : List Char} (hw : IsName w) (hs : Token w s)
    (hr : continuedRank rest < 12) : Finds name s rest fun x => x.1 = String.ofList w := by
  obtain ⟨hblank, hend⟩ := ends_of_continuedRank hr
  obtain ⟨t, ht, hstop⟩ := hs.name_append hend.name
  exact .named (.map (.lexeme hs (by rw [ht, scanName?_append hw hstop]) hblank fun _ => rfl))

/-- An identifier is found like any name. -/
theorem finds_identifier {w s rest : List Char} (hw : IsIdentifier w) (hs : Token w s)
    (hr : continuedRank rest < 12) :
    Finds identifier s rest fun x => x.1 = String.ofList w := by
  obtain ⟨hblank, hend⟩ := ends_of_continuedRank hr
  obtain ⟨t, ht, hstop⟩ := hs.name_append hend.name
  exact .named (.map (.lexeme hs (by rw [ht, scanIdentifier?_append hw hstop]) hblank fun _ => rfl))

/-- A number is found where the text behind it does not continue it. -/
theorem finds_number {w s rest : List Char} (hw : IsNumber w) (hs : Token w s)
    (hr : continuedRank rest < 12) : Finds number s rest fun x => x.1 = numberOf w := by
  obtain ⟨hblank, hend⟩ := ends_of_continuedRank hr
  refine .named (.map (.lexeme hs ?_ hblank fun _ => rfl))
  obtain ⟨blanks, hb, rfl⟩ := hs
  rw [List.append_assoc, scanNumber?_append hw (hend.blanks_append hb)]

/-- A string is found whatever its contents are. -/
theorem finds_string {content w s rest : List Char} (hw : IsString content w) (hs : Token w s)
    (hr : StopsAt isBlank rest) :
    Finds string s rest fun x => x.1 = String.ofList (unescape content) := by
  have hscan : scanString? (s ++ rest) = some w := by
    obtain ⟨blanks, -, rfl⟩ := hs
    rw [List.append_assoc, scanString?_append _ hw]
  refine .named (.map (.lexeme hs hscan hr fun _ => ?_))
  obtain ⟨quote, -, -, rfl⟩ := hw
  change String.ofList (unescape (contentOf (quote :: (content ++ [quote])))) = _
  rw [contentOf_quoted]

/-- A reserved word is found as the literal that it spells. -/
theorem finds_keyword {word : String} {v : Literal} {s rest : List Char}
    (hw : IsName word.toList) (hs : Token word.toList s) (hr : continuedRank rest < 12) :
    Finds (keyword word v) s rest fun e => e.bare = .literal v .none := by
  obtain ⟨hblank, hend⟩ := ends_of_continuedRank hr
  obtain ⟨t, ht, hstop⟩ := hs.name_append hend.name
  exact .named (.map (.lexeme hs (by rw [ht, scanKeyword?_append hw hstop]) hblank fun _ => rfl))

/-! ## Tokens of another kind -/

/-- Where nothing stands that may begin a name, none is found. -/
theorem refuses_name {rest : List Char} (h : StopsAt isNameStart rest) : Refuses name rest :=
  .named (.map (.lexeme (scanName?_eq_none h)))

/-- Where no name stands, no identifier does. -/
theorem refuses_identifier {rest : List Char} (h : StopsAt isNameStart rest) :
    Refuses identifier rest := by
  refine .named (.map (.lexeme ?_))
  rw [scanIdentifier?, scanName?_eq_none h]
  rfl

/-- No number begins with anything but a digit or a point. -/
theorem refuses_number {c : Char} (t : List Char) (hd : c.isDigit = false) (hdot : c ≠ '.') :
    Refuses number (c :: t) := by
  refine .named (.map (.lexeme (scanNumber?_eq_none ?_ fun u hu => ?_)))
  · intro d hmem
    cases hmem
    exact hd
  · exact absurd (List.cons.inj hu).1 hdot

/-- No string begins with anything but a quotation mark. -/
theorem refuses_string {c : Char} (t : List Char) (h₁ : c ≠ '\'') (h₂ : c ≠ '"') :
    Refuses string (c :: t) := by
  refine .named (.map (.lexeme (scanString?_eq_none fun d hd => ?_)))
  cases hd
  exact ⟨h₁, h₂⟩

/-- A symbol does not stand where the text begins with another character than the symbol does. -/
theorem not_prefix_cons {expected : String} {c d : Char} {u : List Char} (t : List Char)
    (hexpected : expected.toList = c :: u) (hne : c ≠ d) : ¬ expected.toList <+: d :: t := by
  intro h
  rw [hexpected] at h
  exact hne (List.cons_prefix_cons.mp h).1

/-- No symbol begins with another character than its own. -/
theorem refuses_symbol {expected : String} {c d : Char} {u : List Char} (t : List Char)
    (hexpected : expected.toList = c :: u) (hne : c ≠ d) : Refuses (symbol expected) (d :: t) :=
  .symbol (not_prefix_cons t hexpected hne)

/-- A keyword is refused where another name stands. -/
theorem refuses_keyword {word : String} {v : Literal} {w s rest : List Char} (hw : IsName w)
    (hs : Token w s) (hr : StopsAt isNamePart rest) (hne : String.ofList w ≠ word) :
    Refuses (keyword word v) (s ++ rest) := by
  obtain ⟨t, ht, hstop⟩ := hs.name_append hr
  exact .named (.map (.lexeme (by rw [ht, scanKeyword?_eq_none hw hstop hne])))

/-- Where no name stands, no reserved word does. -/
theorem refuses_keyword_of_head {word : String} {v : Literal} {rest : List Char}
    (h : StopsAt isNameStart rest) : Refuses (keyword word v) rest := by
  refine .named (.map (.lexeme ?_))
  rw [scanKeyword?, scanName?_eq_none h]
  rfl

/-- A character that begins a name begins neither a number nor a string. -/
theorem ne_of_isNameStart {c : Char} (h : isNameStart c = true) :
    c.isDigit = false ∧ c ≠ '.' ∧ c ≠ '\'' ∧ c ≠ '"' := by
  refine ⟨?_, ?_, ?_, ?_⟩
  · rw [Bool.eq_false_iff]
    intro hd
    simp only [Char.isDigit, Bool.and_eq_true, decide_eq_true_eq] at hd
    simp only [isNameStart, Bool.or_eq_true, decide_eq_true_eq] at h
    -- The letters come after the digits, and the other two characters are no digits.
    rcases h with (h | rfl) | rfl
    · rcases Bool.or_eq_true_iff.mp h with h | h
      · have hupper : 'A'.val ≤ c.val := (of_decide_eq_true h).1
        exact absurd (UInt32.le_trans hupper hd.2) (by decide)
      · have hlower : 'a'.val ≤ c.val := of_decide_eq_true (Bool.and_eq_true_iff.mp h).1
        exact absurd (UInt32.le_trans hlower hd.2) (by decide)
    · exact absurd hd (by decide)
    · exact absurd hd (by decide)
  all_goals
    rintro rfl
    cases h

/-! ## Literals -/

/-- The literals begin with a name, a digit, a point or a quotation mark. -/
theorem refuses_literal {c : Char} (t : List Char) (hd : c.isDigit = false)
    (hn : isNameStart c = false) (hc : c ∉ ['.', '\'', '"']) : Refuses literal (c :: t) := by
  simp only [List.mem_cons, List.not_mem_nil, or_false, not_or] at hc
  have hname : StopsAt isNameStart (c :: t) := fun d hmem => by cases hmem; exact hn
  refine .firstOf fun r hr => ?_
  simp only [List.mem_cons, List.not_mem_nil, or_false] at hr
  rcases hr with rfl | rfl | rfl | rfl | rfl | rfl
  · exact .map (refuses_number t hd hc.1)
  · exact .map (refuses_string t hc.2.1 hc.2.2)
  · exact refuses_keyword_of_head hname
  · exact refuses_keyword_of_head hname
  · exact refuses_keyword_of_head hname
  · exact refuses_keyword_of_head hname

/-- Where a name stands that is another word than some keywords, numbers, strings and these keywords
are refused. -/
theorem refuses_before_name (before : List (String × Literal)) {w s rest : List Char}
    (hw : IsName w) (hs : Token w s) (hr : StopsAt isNamePart rest)
    (hne : ∀ x ∈ before, String.ofList w ≠ x.1) :
    ∀ r ∈ (fun (n, span) => Expr.literal (.num n) span) <$> number ::
      (fun (s, span) => Expr.literal (.str s) span) <$> string ::
      before.map (fun x => keyword x.1 x.2), Refuses r (s ++ rest) := by
  obtain ⟨c, t, hct, hc⟩ := hs.exists_cons hw
  -- The first character of a name begins neither a number nor a string.
  obtain ⟨hd, hdot, hsingle, hdouble⟩ := ne_of_isNameStart hc
  intro r hr
  simp only [List.mem_cons, List.mem_map] at hr
  rcases hr with rfl | rfl | ⟨x, hx, rfl⟩
  · rw [hct]
    exact .map (refuses_number (t ++ rest) hd hdot)
  · rw [hct]
    exact .map (refuses_string (t ++ rest) hsingle hdouble)
  · exact refuses_keyword hw hs hr (hne x hx)

/-- An identifier is no literal, since it is not reserved. -/
theorem refuses_literal_of_identifier {w s rest : List Char} (hw : IsIdentifier w)
    (hs : Token w s) (hr : StopsAt isNamePart rest) : Refuses literal (s ++ rest) := by
  refine .firstOf (refuses_before_name [("true", .bool true), ("false", .bool false),
    ("null", .null), ("undefined", .undefined)] hw.1 hs hr fun x hx heq => hw.2 ?_)
  rw [heq]
  simp only [List.mem_cons, List.not_mem_nil, or_false] at hx
  rcases hx with rfl | rfl | rfl | rfl <;> decide

/-- A keyword is found among literals, whichever keywords are tried before it. -/
theorem finds_literal_of_keyword (before : List (String × Literal)) {after : List (Rule Expr)}
    {w : String} {v : Literal} {s rest : List Char} (hw : IsName w.toList) (hs : Token w.toList s)
    (hr : continuedRank rest < 12) (hne : ∀ x ∈ before, w ≠ x.1) :
    Finds (firstOf ((fun (n, span) => Expr.literal (.num n) span) <$> number ::
      (fun (s, span) => Expr.literal (.str s) span) <$> string ::
      before.map (fun x => keyword x.1 x.2) ++ keyword w v :: after)) s rest
      fun e => e.bare = .literal v .none := by
  have hend : StopsAt isNamePart rest := (ends_of_continuedRank hr).2.name
  refine Finds.firstOf (_ :: _ :: before.map _) (refuses_before_name before hw hs hend ?_)
    (finds_keyword hw hs hr)
  rwa [String.ofList_toList]

/-- A literal is found by the rule for its kind, as the rules before that refuse it. -/
theorem finds_literal {v : Literal} {w s rest : List Char} (hv : Spells v w) (hs : Token w s)
    (hr : continuedRank rest < 12) : Finds literal s rest fun e => e.bare = .literal v .none := by
  obtain ⟨hblank, hend⟩ := ends_of_continuedRank hr
  cases hv with
  | num hw =>
    refine Finds.orElse_left (.map ((finds_number hw hs hr).mono ?_))
    rintro ⟨n, span⟩ rfl
    rfl
  | str hw =>
    refine Finds.orElse_right ?_ (.orElse_left (.map ((finds_string hw hs hblank).mono ?_)))
    · -- No number begins with a quotation mark.
      obtain ⟨quote, hquote, -, rfl⟩ := hw
      obtain ⟨blanks, -, rfl⟩ := hs
      simp only [List.mem_cons, List.not_mem_nil, or_false] at hquote
      rcases hquote with rfl | rfl
      · exact .map (refuses_number _ rfl (by decide))
      · exact .map (refuses_number _ rfl (by decide))
    · rintro ⟨n, span⟩ rfl
      rfl
  | true =>
    exact finds_literal_of_keyword [] ⟨'t', _, rfl, rfl, List.all_eq_true.mp rfl⟩
      hs hr (by simp)
  | false =>
    exact finds_literal_of_keyword [("true", .bool true)]
      ⟨'f', _, rfl, rfl, List.all_eq_true.mp rfl⟩ hs hr (by simp)
  | null =>
    exact finds_literal_of_keyword [("true", .bool true), ("false", .bool false)]
      ⟨'n', _, rfl, rfl, List.all_eq_true.mp rfl⟩ hs hr (by simp)
  | undefined =>
    exact finds_literal_of_keyword [("true", .bool true), ("false", .bool false), ("null", .null)]
      ⟨'u', _, rfl, rfl, List.all_eq_true.mp rfl⟩ hs hr (by simp)

/-- A key is found by the rule for its kind, as the rules before that refuse it. -/
theorem finds_propertyKey {k : String} {w s rest : List Char} (hk : SpellsKey k w)
    (hs : Token w s) (hr : continuedRank rest < 12) :
    Finds propertyKey s rest fun x => x.1 = k := by
  obtain ⟨hblank, hend⟩ := ends_of_continuedRank hr
  cases hk with
  | str hw => exact .named (.orElse_left (finds_string hw hs hblank))
  | num hw =>
    refine .named (.orElse_right ?_ (.orElse_left (.map ((finds_number hw hs hr).mono ?_))))
    · -- No string begins with a digit or a point.
      obtain ⟨c, t, rfl, hc⟩ := hw.exists_cons
      obtain ⟨blanks, -, rfl⟩ := hs
      refine refuses_string _ ?_ ?_
      · rintro rfl
        rcases hc with hc | ⟨hc, -⟩ <;> cases hc
      · rintro rfl
        rcases hc with hc | ⟨hc, -⟩ <;> cases hc
    · rintro ⟨n, span⟩ rfl
      rfl
  | name hw =>
    obtain ⟨c, t, hct, hc⟩ := hs.exists_cons hw
    obtain ⟨hd, hdot, hsingle, hdouble⟩ := ne_of_isNameStart hc
    refine .named (.orElse_right ?_ (.orElse_right ?_ (.orElse_left (finds_name hw hs hr))))
    · rw [hct]
      exact refuses_string (t ++ rest) hsingle hdouble
    · rw [hct]
      exact .map (refuses_number (t ++ rest) hd hdot)

/-! ## Operators -/

/-- A symbol that goes on with an equals sign where another one ends is not found in place of that
one. -/
theorem not_prefix_append {longer symbol t : List Char} (hne : ¬ longer <+: symbol)
    (hlonger : symbol <+: longer → (longer.drop symbol.length).head? = some '=')
    (ht : StopsAt (· = '=') t) : ¬ longer <+: symbol ++ t := by
  intro h
  -- Both symbols are fronts of one text, so one is the front of the other.
  rcases List.prefix_or_prefix_of_prefix h (List.prefix_append symbol t) with h' | h'
  · exact hne h'
  · -- The longer one then wants an equals sign where the text after the shorter one begins.
    have heq := hlonger h'
    obtain ⟨u, rfl⟩ := h'
    rw [List.drop_left] at heq
    obtain ⟨v, hv⟩ := (List.prefix_append_right_inj symbol).mp h
    cases u with
    | nil => cases heq
    | cons c u =>
      cases heq
      rw [← hv] at ht
      exact absurd (ht '=' rfl) (by decide)

/-- The operators that are tried before one of the same level begin otherwise, or they go on with an
equals sign where that one ends. -/
theorem exists_operators_eq (op : Operator) :
    ∃ before after, op.precedence.operators = before ++ (op.spelling, op) :: after ∧
      ∀ x ∈ before, ¬ x.1.toList <+: op.spelling.toList ∧
        (op.spelling.toList <+: x.1.toList →
          (x.1.toList.drop op.spelling.toList.length).head? = some '=') := by
  refine ⟨op.precedence.operators.takeWhile (·.2 ≠ op),
    (op.precedence.operators.dropWhile (·.2 ≠ op)).drop 1, ?_, ?_⟩
  -- There are sixteen operators, each with its row in the table of its level.
  · rcases op with op | op <;> cases op <;> rfl
  · rcases op with op | op <;> cases op <;> decide

/-- An operator is found where it is not continued to a longer one. -/
theorem finds_operator {op : Operator} {s rest : List Char}
    (hs : Token op.spelling.toList s) (hblank : StopsAt isBlank rest)
    (heq : StopsAt (· = '=') rest) :
    Finds (operator op.precedence.operators) s rest fun found => found = op := by
  obtain ⟨before, after, hops, hbefore⟩ := exists_operators_eq op
  rw [operator, hops, List.map_append, List.map_cons]
  refine .firstOf _ (fun r hr => ?_) (.named ?_)
  · obtain ⟨x, hx, rfl⟩ := List.mem_map.mp hr
    obtain ⟨hne, hlonger⟩ := hbefore x hx
    refine .named (.bind (.symbol ?_))
    obtain ⟨blanks, hb, rfl⟩ := hs
    rw [List.append_assoc]
    exact not_prefix_append hne hlonger (heq.head_ne_blanks_append rfl hb)
  · exact Finds.bind_nil_right (.symbol hs hblank) fun _ _ => .pure rfl

/-- No operator of a level is found where the text continues another level. -/
theorem refuses_operator {p : Precedence} {rest : List Char}
    (h : continuedRank rest ≠ p.rank) : Refuses (operator p.operators) rest := by
  refine .firstOf fun r hr => ?_
  obtain ⟨x, hx, rfl⟩ := List.mem_map.mp hr
  obtain ⟨htext, hp⟩ := of_mem_operators hx
  refine .named (.bind (.symbol ?_))
  rintro ⟨t, rfl⟩
  rw [htext, continuedRank_spelling, hp] at h
  exact h rfl

/-- A prefix operator is found where it is not continued to an inequality. -/
theorem finds_prefixOperator {op : UnaryOp} {s rest : List Char}
    (hs : Token (prefixSpelling op).toList s) (hblank : StopsAt isBlank rest)
    (heq : StopsAt (· = '=') rest) :
    Finds prefixOperator s rest fun found => found.1 = op := by
  have hhead : ∃ c t, s ++ rest = c :: t ∧ (prefixSpelling op).toList = [c] := by
    obtain ⟨blanks, -, rfl⟩ := hs
    cases op <;> exact ⟨_, _, rfl, rfl⟩
  have hop : Finds (do let _ ← symbol (prefixSpelling op); return op) s rest (· = op) :=
    Finds.bind_nil_right (.symbol hs hblank) fun _ _ => .pure rfl
  obtain ⟨c, t, hct, hc⟩ := hhead
  have hfirst : Finds (firstOf
      [named do
        let _ ← symbol "!"
        guard fun text => text.head? != some '='
        return UnaryOp.not,
       named do
        let _ ← symbol "-"
        return UnaryOp.neg,
       named do
        let _ ← symbol "+"
        return UnaryOp.pos]) s rest (· = op) := by
    cases op with
    | not =>
      -- The grammar looks ahead here, so as not to take the first half of an inequality.
      have hguard : (rest.head? != some '=') = true := by
        rw [bne_iff_ne]
        intro h
        exact absurd (heq '=' h) (by decide)
      exact .orElse_left (.named (Finds.bind_nil_right (.symbol hs hblank) fun _ _ =>
        Finds.bind_nil_right (.guard hguard) fun _ _ => .pure rfl))
    | neg =>
      cases hc
      refine .orElse_right ?_ (.orElse_left (.named hop))
      rw [hct]
      exact .named (.bind (refuses_symbol t rfl (by decide)))
    | pos =>
      cases hc
      refine .orElse_right ?_ (.orElse_right ?_ (.orElse_left (.named hop)))
      · rw [hct]
        exact .named (.bind (refuses_symbol t rfl (by decide)))
      · rw [hct]
        exact .named (.bind (refuses_symbol t rfl (by decide)))
  exact .after_position fun first => hfirst.bind_nil_right fun _ hop => .pure hop

/-- A text that begins with none of the operators has none before its operand. -/
theorem refuses_prefixOperator {c : Char} (t : List Char) (h : isPrefixSymbol c = false) :
    Refuses prefixOperator (c :: t) := by
  have hc : '!' ≠ c ∧ '-' ≠ c ∧ '+' ≠ c := by
    refine ⟨?_, ?_, ?_⟩
    all_goals
      rintro rfl
      cases h
  refine .after_position fun first => .bind (.firstOf fun r hr => ?_)
  simp only [List.mem_cons, List.not_mem_nil, or_false] at hr
  rcases hr with rfl | rfl | rfl
  · exact .named (.bind (refuses_symbol t rfl hc.1))
  · exact .named (.bind (refuses_symbol t rfl hc.2.1))
  · exact .named (.bind (refuses_symbol t rfl hc.2.2))

/-! ## The question mark of a ternary -/

/-- A question mark continues a ternary unless it is part of a longer symbol. -/
theorem continuedRank_question_cons {t : List Char} (hq : StopsAt (· = '?') t)
    (hdot : ∀ u, t = '.' :: u → startsWithDigit u = true) : continuedRank ('?' :: t) = 1 := by
  unfold continuedRank
  split
  · rename_i h; cases h
  · rename_i u h
    cases h
    exact absurd (hq '?' rfl) (by decide)
  · rename_i u h
    cases h
    rw [if_pos (hdot u rfl)]
  · rfl
  · rename_i h; cases h
  · rename_i hne _ h
    exact absurd (List.cons.inj h).1.symm hne

/-- A question mark before an expression continues a ternary. -/
theorem continuedRank_question {p : Precedence} {s t : List Char} (hs : Token ['?'] s)
    (ht : Starts p t) : continuedRank (s ++ t) = 1 := by
  obtain ⟨blanks, hb, rfl⟩ := hs
  rw [List.append_assoc]
  -- No expression begins with a question mark, and with a point only if a digit follows.
  have hq : StopsAt (· = '?') (blanks ++ t) := (ht.head_ne rfl rfl).head_ne_blanks_append rfl hb
  refine continuedRank_question_cons hq fun u hu => ?_
  cases blanks with
  | nil =>
    obtain ⟨c, v, rfl, -, hdot⟩ := ht
    cases hu
    exact hdot rfl
  | cons b blanks =>
    cases hu
    exact absurd (hb '.' (by simp)) (by decide)

/-- The question mark of a ternary is found before an expression, which begins with no symbol that
it could go on to. -/
theorem finds_questionMark {p : Precedence} {s rest : List Char} (hs : Token ['?'] s)
    (hr : Starts p rest) : Finds questionMark s rest fun _ => True := by
  refine Finds.bind_nil_right (.symbol hs hr.unblank) fun _ _ => .guard ?_
  -- A second question mark would make another operator, and a point without a digit another link.
  have hq : StopsAt (· = '?') rest := hr.head_ne rfl rfl
  obtain ⟨c, t, rfl, -, hdot⟩ := hr
  split
  · rename_i u h
    cases h
    exact absurd (hq '?' rfl) (by decide)
  · -- The grammar looks for the digit behind blanks, but there are none before it.
    rename_i u h
    cases h
    have hdigit := hdot rfl
    cases t with
    | nil => cases hdigit
    | cons d t =>
      have hd : d.isDigit = true := hdigit
      have hblank : isBlank d = false := by
        rw [Bool.eq_false_iff]
        intro hb
        rw [isDigit_of_isBlank hb] at hd
        cases hd
      rw [List.dropWhile_cons, if_neg (by simp [hblank])]
      simpa using hd
  · rfl

/-- A text that continues nothing has no branches of a ternary. -/
theorem refuses_branches {expression : Rule Expr} {rest : List Char}
    (h : continuedRank rest = 0) : Refuses (branches expression) rest := by
  refine .bind (.bind (.symbol ?_))
  rintro ⟨t, rfl⟩
  change continuedRank ('?' :: t) = 0 at h
  unfold continuedRank at h
  split at h
  · rename_i h'; cases h'
  · cases h
  · split at h <;> cases h
  · cases h
  · rename_i h'; cases h'
  · rename_i hne _ h'
    exact absurd (List.cons.inj h').1.symm hne

end Syntax

end TemplateFlow
