import TodLang.Proofs.Grammar.Reread
import TodLang.Proofs.Tree.Lexical
/-!
The text of a written type. It has tokens again, which are read as a type with the same names in the
same places, so it tells written types apart (`typeText_reread`). The signs of a type begin no
longer sign, so a name in it ends where a sign or the text does, and no white space is needed there.
-/

namespace TodLang

/-! ### Names and signs inside a text -/

/-- A text that goes on with no name that stands in front of it. -/
def Parted (text : List Char) : Prop :=
  ∀ c ∈ text.head?, isNamePart c = false

theorem isNameStart_eq_false_of_isBlank {c : Char} (h : isBlank c = true) :
    isNameStart c = false := by
  rcases eq_of_isBlank h with rfl | rfl | rfl | rfl | rfl <;> decide

theorem isNameStart_eq_false_of_isDigit {c : Char} (h : c.isDigit = true) :
    isNameStart c = false := by
  have hle := toNat_le_of_isDigit h
  have halpha : c.isAlpha = false := by
    by_contra halpha
    have hge : 65 ≤ c.toNat := by
      rcases Bool.or_eq_true_iff.1 (eq_true_of_ne_false halpha) with hupper | hlower
      · exact UInt32.le_iff_toNat_le.1 (of_decide_eq_true hupper).1
      · have hle : 'a'.val ≤ c.val := of_decide_eq_true (Bool.and_eq_true_iff.1 hlower).1
        exact Nat.le_trans (by decide) (UInt32.le_iff_toNat_le.1 hle)
    omega
  have hline : c ≠ '_' := by
    rintro rfl
    cases h
  simp [isNameStart, isLetter, halpha, hline, show c.toNat < 128 by omega]

/-- A name is read as far as it goes. -/
theorem IsName.exists_readPiece {name : String} (h : IsName name) {rest : List Char}
    (hrest : Parted rest) (hash : Bool) :
    ∃ c tail, name.toList = c :: tail ∧
      readPiece hash c (tail ++ rest) = .ok (.lexeme .identifier none (c :: tail), rest) := by
  obtain ⟨⟨hstart, hall⟩, hfree⟩ := h
  cases htext : name.toList with
  | nil =>
    rw [htext] at hstart
    cases hstart
  | cons c tail =>
    rw [htext] at hstart hall
    replace hstart : isNameStart c = true := hstart
    have hpart : ∀ d ∈ tail, isNamePart d = true := List.all_eq_true.1 hall
    have hblank : ¬ isBlank c = true := fun hc => by
      rw [isNameStart_eq_false_of_isBlank hc] at hstart
      cases hstart
    have hdigit : ¬ c.isDigit = true := fun hc => by
      rw [isNameStart_eq_false_of_isDigit hc] at hstart
      cases hstart
    have hquote : ¬ (c = '"' ∨ c = '\'') := by
      rintro (rfl | rfl) <;> cases hstart
    have hcomment : readComment? hash (c :: (tail ++ rest)) = none := by
      rw [readComment?_cons_eq_none_iff]
      constructor <;> rintro rfl <;> cases hstart
    obtain ⟨hrun, hbehind⟩ := span_append hpart hrest
    have hword : wordLexeme (c :: tail) = .lexeme .identifier none (c :: tail) := by
      rw [wordLexeme_eq_identifier_iff, ← htext, String.ofList_toList]
      exact ⟨hfree, rfl, rfl⟩
    refine ⟨c, tail, rfl, ?_⟩
    rw [readPiece, if_neg hblank, hcomment]
    dsimp only
    rw [if_neg hquote, if_neg hdigit, if_pos hstart, hrun, hbehind, hword]

/-- No other sign begins with the sign, and no comment does. -/
def Sign.StandsAlone (s : Sign) : Prop :=
  (∀ t : Sign, s.spelling <+: t.spelling → t = s) ∧ '/' ∉ s.spelling.head? ∧
    '#' ∉ s.spelling.head?

theorem Sign.StandsAlone.longestSign?_eq {s : Sign} (h : s.StandsAlone) (rest : List Char) :
    longestSign? (s.spelling ++ rest) = some s := by
  have hprefix := List.prefix_append s.spelling rest
  cases hlongest : longestSign? (s.spelling ++ rest) with
  | none => exact absurd hprefix (longestSign?_eq_none hlongest s)
  | some t =>
    obtain ⟨hstarts, hlength⟩ := longestSign?_eq_some hlongest
    rw [h.1 t (List.prefix_of_prefix_length_le hprefix hstarts (hlength s hprefix))]

theorem Sign.StandsAlone.exists_readPiece {s : Sign} (h : s.StandsAlone) (rest : List Char)
    (hash : Bool) :
    ∃ c tail, s.spelling = c :: tail ∧
      readPiece hash c (tail ++ rest) = .ok (.lexeme (.sign s) none (c :: tail), rest) := by
  obtain ⟨c, tail, htext, hblank, hquote, hdigit, hname⟩ := s.exists_spelling
  have hlongest := h.longestSign?_eq rest
  obtain ⟨-, hslash, hhash⟩ := h
  rw [htext] at hlongest hslash hhash
  have hcomment : readComment? hash (c :: (tail ++ rest)) = none := by
    rw [readComment?_cons_eq_none_iff]
    constructor
    · rintro rfl
      exact absurd rfl hslash
    · rintro rfl
      exact absurd rfl hhash
  refine ⟨c, tail, htext, ?_⟩
  rw [List.cons_append] at hlongest
  unfold readPiece
  simp [hblank, hcomment, hquote, hdigit, hname, hlongest, htext]

theorem Sign.standsAlone_pathSep : Sign.pathSep.StandsAlone := by
  refine ⟨fun t => ?_, by decide⟩
  cases t <;> decide

theorem Sign.standsAlone_lbrack : Sign.lbrack.StandsAlone := by
  refine ⟨fun t => ?_, by decide⟩
  cases t <;> decide

theorem Sign.standsAlone_comma : Sign.comma.StandsAlone := by
  refine ⟨fun t => ?_, by decide⟩
  cases t <;> decide

theorem Sign.standsAlone_rbrack : Sign.rbrack.StandsAlone := by
  refine ⟨fun t => ?_, by decide⟩
  cases t <;> decide

/-! ### Texts that have tokens -/

/-- In front of the rest, a text has tokens of some sort, wherever it stands. -/
def Lexes (hash : Bool) (text : List Char) (spells : List Token → Prop) (rest : List Char) :
    Prop :=
  ∀ file place, ∃ tokens after, spells tokens ∧
    (readPieces hash (text ++ rest)).tokens file place =
      ((readPieces hash rest).tokens file after).map fun others => tokens ++ others

/-- Tokens of one sort in front of tokens of another. -/
def Beside (first second : List Token → Prop) (tokens : List Token) : Prop :=
  ∃ front back, tokens = front ++ back ∧ first front ∧ second back

section

variable {hash : Bool} {front back rest : List Char} {first second : List Token → Prop}

theorem Lexes.append (hfront : Lexes hash front first (back ++ rest))
    (hback : Lexes hash back second rest) :
    Lexes hash (front ++ back) (Beside first second) rest := by
  intro file place
  obtain ⟨ts, middle, hts, hfront⟩ := hfront file place
  obtain ⟨us, after, hus, hback⟩ := hback file middle
  refine ⟨ts ++ us, after, ⟨ts, us, rfl, hts, hus⟩, ?_⟩
  rw [List.append_assoc, hfront, hback]
  cases (readPieces hash rest).tokens file after with
  | error e => rfl
  | ok others => simp [Except.map]

theorem Lexes.imp (h : Lexes hash front first rest)
    (himp : ∀ ts, first ts → second ts) : Lexes hash front second rest := by
  intro file place
  obtain ⟨ts, after, hts, h⟩ := h file place
  exact ⟨ts, after, himp ts hts, h⟩

theorem lexes_of_readPiece {text : List Char} {kind : TokenKind} {value : Option Value}
    (h : ∃ c tail, text = c :: tail ∧
      readPiece hash c (tail ++ rest) = .ok (.lexeme kind value (c :: tail), rest)) :
    Lexes hash text (fun tokens => ∃ t : Token, tokens = [t] ∧ t.kind = kind ∧
      t.literal = String.ofList text) rest := by
  obtain ⟨c, tail, rfl, hpiece⟩ := h
  intro file place
  refine ⟨_, _, ⟨_, rfl, ?_, ?_⟩, tokens_lexeme hpiece⟩
  · rfl
  · rfl

theorem IsName.lexes {name : Ident} (h : IsName name.name) (hrest : Parted rest) :
    Lexes hash name.name.toList
      (fun tokens => ∃ again, NameSpelling again tokens ∧ again.bare = name.bare) rest := by
  refine (lexes_of_readPiece (h.exists_readPiece hrest hash)).imp ?_
  rintro _ ⟨t, rfl, hkind, hliteral⟩
  refine ⟨t.ident, .token hkind, ?_⟩
  rw [String.ofList_toList] at hliteral
  simp [Token.ident, Ident.bare, hliteral]

theorem Sign.StandsAlone.lexes {s : Sign} (h : s.StandsAlone) :
    Lexes hash s.spelling (Fixed (.sign s)) rest := by
  refine (lexes_of_readPiece (h.exists_readPiece rest hash)).imp ?_
  rintro _ ⟨t, rfl, hkind, -⟩
  exact .token hkind

/-- A blank has no token. -/
theorem lexes_blank : Lexes hash [' '] (fun tokens => tokens = []) rest := by
  intro file place
  refine ⟨[], place.advance [' '], rfl, ?_⟩
  rw [tokens_blank (by simp [isBlank])]
  cases (readPieces hash rest).tokens file (place.advance [' ']) <;> rfl

/-! ### The tokens of a type's text -/

/-- No name goes on with a sign. -/
theorem parted_sign (s : Sign) (rest : List Char) : Parted (s.spelling ++ rest) := by
  cases s <;> exact fun _ h => by cases h; decide

theorem lexes_qualified {package : Option Ident} {name : Ident}
    (hnames : AreNames (package.toList ++ [name])) (hrest : Parted rest) :
    Lexes hash (qualified (package.map Ident.name) name.name).toList
      (fun tokens => ∃ package' name', QualifiedSpelling package' name' tokens ∧
        package'.map Ident.bare = package.map Ident.bare ∧ name'.bare = name.bare) rest := by
  have hname : Lexes hash name.name.toList _ rest := (hnames name (by simp)).lexes hrest
  cases package with
  | none =>
    refine hname.imp ?_
    rintro ts ⟨again, hspells, hbare⟩
    exact ⟨none, again, .plain hspells, rfl, hbare⟩
  | some package =>
    have hpackage : ∀ behind, Lexes hash package.name.toList _ (Sign.pathSep.spelling ++ behind) :=
      fun behind => (hnames package (by simp)).lexes (parted_sign .pathSep behind)
    have hall := ((hpackage _).append Sign.standsAlone_pathSep.lexes).append hname
    have htext : (qualified (some package.name) name.name).toList =
        package.name.toList ++ Sign.pathSep.spelling ++ name.name.toList := by
      simp [qualified, Sign.spelling, Sign.text]
    rw [Option.map_some, htext]
    refine hall.imp ?_
    rintro _ ⟨_, _, rfl, ⟨_, _, rfl, ⟨again, hfront, hbare⟩, hmiddle⟩, ⟨name', hback, hbare'⟩⟩
    exact ⟨some again, name', .qualified hfront hmiddle hback, by simp [hbare], hbare'⟩

namespace TypeClause

/-- The text of types with commas between them. -/
def textAll : List TypeClause → List Char
  | [] => []
  | c :: others => c.text.toList ++ (textTail others).toList

theorem textAll_cons_cons (c d : TypeClause) (others : List TypeClause) :
    textAll (c :: d :: others) =
      c.text.toList ++ Sign.comma.spelling ++ [' '] ++ textAll (d :: others) := by
  simp [textAll, textTail, Sign.spelling, Sign.text]

theorem toList_text_cons (package : Option Ident) (name : Ident) (first : TypeClause)
    (others : List TypeClause) (closing : Option Span) :
    (text ⟨package, name, first :: others, closing⟩).toList =
      (qualified (package.map Ident.name) name.name).toList ++ Sign.lbrack.spelling ++
        textAll (first :: others) ++ Sign.rbrack.spelling := by
  simp [textAll, text, Sign.spelling, Sign.text]

mutual

/-- The text of a type has tokens that spell it. -/
theorem lexes : ∀ {c : TypeClause} {rest : List Char},
    (Node.type c).Everywhere Node.Lexical → Parted rest →
      Lexes hash c.text.toList (fun tokens => ∃ d, TypeSpelling d tokens ∧ d.bare = c.bare) rest
  | ⟨package, name, [], closing⟩, rest, hlexical, hrest => by
    obtain ⟨⟨hnames, hclosing⟩, -⟩ := Node.everywhere_iff.1 hlexical
    obtain rfl : closing = none := by simpa [Node.Consistent, isGeneric] using hclosing
    rw [text]
    refine (lexes_qualified hnames hrest).imp ?_
    rintro ts ⟨package', name', hspells, hpackage, hname⟩
    exact ⟨_, .plain hspells, by simp [bare, bareAll, hpackage, hname]⟩
  | ⟨package, name, first :: others, closing⟩, rest, hlexical, hrest => by
    obtain ⟨⟨hnames, hclosing⟩, hbelow⟩ := Node.everywhere_iff.1 hlexical
    obtain ⟨span, rfl⟩ : ∃ span, closing = some span :=
      Option.isSome_iff_exists.1 (by simpa [Node.Consistent, isGeneric] using hclosing)
    have hname : ∀ behind, Lexes hash _ _ (Sign.lbrack.spelling ++ behind) :=
      fun behind => lexes_qualified hnames (parted_sign .lbrack behind)
    have hinside : Lexes hash (textAll (first :: others)) _ (Sign.rbrack.spelling ++ rest) :=
      lexesAll nofun hbelow (parted_sign .rbrack rest)
    have hall := (((hname _).append Sign.standsAlone_lbrack.lexes).append hinside).append
      Sign.standsAlone_rbrack.lexes
    rw [toList_text_cons]
    refine hall.imp ?_
    rintro _ ⟨_, _, rfl, ⟨_, _, rfl, ⟨_, _, rfl, ⟨package', name', hspells, hpackage, hname⟩,
      hopening⟩, ds, hinside, hbare⟩, hclosing⟩
    cases hclosing with
    | token hclosing =>
      exact ⟨_, .generic hspells hopening hinside (.token hclosing),
        by simp [bare, hpackage, hname, hbare]⟩

theorem lexesAll : ∀ {cs : List TypeClause} {rest : List Char}, cs ≠ [] →
    Node.AllLexical (cs.map Node.type) → Parted rest →
      Lexes hash (textAll cs)
        (fun tokens => ∃ ds, SpellsType (.clauses ds) tokens ∧ bareAll ds = bareAll cs) rest
  | [], _, hne, _, _ => absurd rfl hne
  | [c], rest, _, hlexical, hrest => by
    have hfirst := lexes (hlexical (.type c) List.mem_cons_self) hrest
    have htext : textAll [c] = c.text.toList := by simp [textAll, textTail]
    rw [htext]
    refine hfirst.imp ?_
    rintro ts ⟨d, hspells, hbare⟩
    exact ⟨[d], .last hspells, by simp [bareAll, hbare]⟩
  | c :: d :: others, rest, _, hlexical, hrest => by
    obtain ⟨hfirst, hothers⟩ := List.forall_mem_cons.1 hlexical
    have hfirst : ∀ behind, Lexes hash c.text.toList _ (Sign.comma.spelling ++ behind) :=
      fun behind => lexes hfirst (parted_sign .comma behind)
    have hothers : Lexes hash (textAll (d :: others)) _ rest := lexesAll nofun hothers hrest
    have hall := (((hfirst _).append Sign.standsAlone_comma.lexes).append lexes_blank).append
      hothers
    rw [textAll_cons_cons]
    refine hall.imp ?_
    rintro _ ⟨_, _, rfl, ⟨_, _, rfl, ⟨_, _, rfl, ⟨e, hspells, hbare⟩, hcomma⟩, rfl⟩,
      es, hinside, hbares⟩
    rw [List.append_nil]
    refine ⟨e :: es, .more hspells hcomma hinside, ?_⟩
    rw [bareAll, bareAll, hbare, hbares]

end

mutual

/-- A type at no place has the same text. -/
theorem text_bare : ∀ c : TypeClause, c.bare.text = c.text
  | ⟨package, name, [], closing⟩ => by
    cases package <;> rfl
  | ⟨package, name, first :: others, closing⟩ => by
    have hfirst := text_bare first
    have hothers := textTail_bareAll others
    cases package <;> simp [bare, bareAll, text, hfirst, hothers, Ident.bare]

theorem textTail_bareAll : ∀ cs : List TypeClause, textTail (bareAll cs) = textTail cs
  | [] => rfl
  | c :: others => by
    have hfirst := text_bare c
    have hothers := textTail_bareAll others
    simp [bareAll, textTail, hfirst, hothers]

end

end TypeClause

end

/-- The text of a type in the tree of a source has tokens, and all of them are read as that type, at
other places. -/
theorem exists_reread_typeText {c : TypeClause} (h : (Node.type c).Everywhere Node.Lexical)
    (file : Nat) (hash : Bool) :
    ∃ (again : List Token) (read : Parsed TypeClause (beforeEnding again).length),
      tokenize file hash c.text = .ok again ∧ parseTypeClause (beforeEnding again) = .ok read ∧
        read.rest = [] ∧ read.value.bare = c.bare := by
  have hlexes : Lexes hash c.text.toList _ [] := TypeClause.lexes h nofun
  obtain ⟨tokens, after, ⟨d, hspells, hbare⟩, htokens⟩ := hlexes file Position.start
  rw [List.append_nil] at htokens
  have hsource : tokenize file hash c.text =
      .ok (tokens ++ [Token.ending (Span.point file after)]) := by
    rw [tokenize, htokens]
    simp [readPieces, Reading.tokens, Except.map]
  have hending := beforeEnding_append (isEnding_of_tokenize hsource) (Span.point file after)
  have hread : ReadsAs parseTypeClause (tokens ++ []) d [] := (hspells.parses [] rfl).reads
  rw [List.append_nil, ← hending] at hread
  obtain ⟨hlt, hread⟩ := hread
  exact ⟨_, _, hsource, hread, rfl, hbare⟩

/-- Lexical types with the same text are the same but for their places. -/
theorem bare_eq_of_typeText {c d : TypeClause} (hc : (Node.type c).Everywhere Node.Lexical)
    (hd : (Node.type d).Everywhere Node.Lexical) (htext : c.text = d.text) : c.bare = d.bare := by
  obtain ⟨again, read, hagain, hread, -, hbare⟩ := exists_reread_typeText hc 0 true
  obtain ⟨again', read', hagain', hread', -, hbare'⟩ := exists_reread_typeText hd 0 true
  rw [htext, hagain'] at hagain
  cases hagain
  rw [hread'] at hread
  cases hread
  rw [← hbare, hbare']

/-- The text of a type in the tree of a source has tokens, and all of them are read as that type, at
other places. So two such types have the same text if and only if they are the same but for their
places. -/
theorem typeText_reread {c : TypeClause} (hc : (Node.type c).FromSource) :
    (∀ file hash, ∃ (again : List Token) (read : Parsed TypeClause (beforeEnding again).length),
      tokenize file hash c.text = .ok again ∧ parseTypeClause (beforeEnding again) = .ok read ∧
        read.rest = [] ∧ read.value.bare = c.bare) ∧
    ∀ d, (Node.type d).FromSource → (c.text = d.text ↔ c.bare = d.bare) := by
  refine ⟨exists_reread_typeText hc.lexical, ?_⟩
  intro d hd
  constructor
  · exact bare_eq_of_typeText hc.lexical hd.lexical
  · intro hbare
    rw [← TypeClause.text_bare c, hbare, TypeClause.text_bare]

/-- A type with a package and with a type in brackets that has one itself. Its text has a blank that
the source does not have. -/
theorem typeText_reread_nested :
    let tokens : List Token :=
      [⟨.keyword .varWord, "var", none, ⟨0, 0, 3, 1, 1, 1, 4⟩, true⟩,
       ⟨.identifier, "p", none, ⟨0, 4, 5, 1, 5, 1, 6⟩, false⟩,
       ⟨.sign .pathSep, "::", none, ⟨0, 5, 7, 1, 6, 1, 8⟩, false⟩,
       ⟨.identifier, "m", none, ⟨0, 7, 8, 1, 8, 1, 9⟩, false⟩,
       ⟨.sign .lbrack, "[", none, ⟨0, 8, 9, 1, 9, 1, 10⟩, false⟩,
       ⟨.identifier, "a", none, ⟨0, 9, 10, 1, 10, 1, 11⟩, false⟩,
       ⟨.sign .comma, ",", none, ⟨0, 10, 11, 1, 11, 1, 12⟩, false⟩,
       ⟨.identifier, "b", none, ⟨0, 11, 12, 1, 12, 1, 13⟩, false⟩,
       ⟨.sign .lbrack, "[", none, ⟨0, 12, 13, 1, 13, 1, 14⟩, false⟩,
       ⟨.identifier, "c", none, ⟨0, 13, 14, 1, 14, 1, 15⟩, false⟩,
       ⟨.sign .rbrack, "]", none, ⟨0, 14, 15, 1, 15, 1, 16⟩, false⟩,
       ⟨.sign .rbrack, "]", none, ⟨0, 15, 16, 1, 16, 1, 17⟩, false⟩,
       ⟨.identifier, "x", none, ⟨0, 16, 17, 1, 17, 1, 18⟩, true⟩,
       Token.ending ⟨0, 17, 17, 1, 18, 1, 18⟩]
    let inner : TypeClause :=
      ⟨none, ⟨"b", ⟨0, 11, 12, 1, 12, 1, 13⟩⟩,
        [⟨none, ⟨"c", ⟨0, 13, 14, 1, 14, 1, 15⟩⟩, [], none⟩], some ⟨0, 14, 15, 1, 15, 1, 16⟩⟩
    let clause : TypeClause :=
      ⟨some ⟨"p", ⟨0, 4, 5, 1, 5, 1, 6⟩⟩, ⟨"m", ⟨0, 7, 8, 1, 8, 1, 9⟩⟩,
        [⟨none, ⟨"a", ⟨0, 9, 10, 1, 10, 1, 11⟩⟩, [], none⟩, inner],
        some ⟨0, 15, 16, 1, 16, 1, 17⟩⟩
    let members : List Member :=
      [.statement (.declaration ⟨⟨0, 0, 3, 1, 1, 1, 4⟩, false, some clause,
        ⟨"x", ⟨0, 16, 17, 1, 17, 1, 18⟩⟩, none⟩)]
    tokenize 0 true "var p::m[a,b[c]]x" = .ok tokens ∧ parseProgram tokens = .ok members ∧
      clause.text = "p::m[a, b[c]]" ∧
      (∀ file hash, ∃ (again : List Token) (read : Parsed TypeClause (beforeEnding again).length),
        tokenize file hash clause.text = .ok again ∧
          parseTypeClause (beforeEnding again) = .ok read ∧ read.rest = [] ∧
          read.value.bare = clause.bare) ∧
      (clause.text = inner.text ↔ clause.bare = inner.bare) := by
  intro tokens inner clause members
  have htokens : tokenize 0 true "var p::m[a,b[c]]x" = .ok tokens := by
    decide +kernel
  have hparse : parseProgram tokens = .ok members := by
    dsimp only [tokens, members, clause, inner]
    cbv
  have hdeclaration : Node.Within (.type clause) (.member members[0]) :=
    .under List.mem_cons_self (.under List.mem_cons_self (.under List.mem_cons_self .self))
  have hclause : (Node.type clause).FromSource :=
    ⟨0, true, _, tokens, members, htokens, hparse, _, List.mem_cons_self, hdeclaration⟩
  have hargument : Node.Within (.type inner) (.member members[0]) :=
    .under List.mem_cons_self (.under List.mem_cons_self (.under List.mem_cons_self
      (.under (List.mem_cons_of_mem _ List.mem_cons_self) .self)))
  have hinner : (Node.type inner).FromSource :=
    ⟨0, true, _, tokens, members, htokens, hparse, _, List.mem_cons_self, hargument⟩
  obtain ⟨hreread, hsame⟩ := typeText_reread hclause
  exact ⟨htokens, hparse, by decide +kernel, hreread, hsame inner hinner⟩

end TodLang
