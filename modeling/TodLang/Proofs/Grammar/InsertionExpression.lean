import TodLang.Proofs.Grammar.Insertion
import TodLang.Proofs.Grammar.ExpressionReadings
/-!
An expression is read the same with a semicolon put in behind it, or farther back. The lemmas go by
induction on how it was read. What a reader looked at ahead it finds again, since the semicolon goes
on with nothing.
-/

namespace TodLang

section

variable {t : Token} {r ts us rest : List Token} {e : Expression}

/-! ### Looking ahead -/

theorem BracketAhead.inserted (h : BracketAhead ts) (hus : Inserted t r ts us) {type : TypeClause}
    {hlt : rest.length < ts.length} (hhead : tryCastHead? ts = some ⟨type, rest, hlt⟩)
    (hlen : r.length ≤ rest.length) : BracketAhead us := by
  obtain ⟨hshort, hqualified⟩ := tryCastHead?_shorter hhead
  rcases h with hsecond | ⟨hsecond, hfourth⟩
  · rw [← hus.kindAt_eq (by omega)] at hsecond
    exact .inl hsecond
  · have hlong := hqualified hsecond
    rw [← hus.kindAt_eq (by omega)] at hsecond hfourth
    exact .inr ⟨hsecond, hfourth⟩

theorem Inserted.leadingOperator?_eq (h : Inserted t r ts us) (hlen : r.length < ts.length)
    (parent : Nat) : leadingOperator? parent us = leadingOperator? parent ts := by
  rw [leadingOperator?, leadingOperator?, h.nextKind_eq hlen]

theorem Inserted.joiningOperator?_eq_none (ht : t.kind = .sign .semicolon) (h : Inserted t r ts us)
    (hlen : r.length ≤ ts.length) {parent : Nat} (hnone : joiningOperator? parent ts = none) :
    joiningOperator? parent us = none := by
  rcases h.kindAt_or 0 hlen with heq | heq
  · rwa [joiningOperator?, nextKind, heq]
  · rw [joiningOperator?, nextKind, heq, ht]
    rfl

theorem MakeHeadReading.inserted (ht : t.kind = .sign .semicolon) {keyword : Span}
    {type : TypeClause} (h : MakeHeadReading keyword type ts rest) (hus : Inserted t r ts us)
    (hlen : r.length ≤ rest.length) : ReadsOn t r (MakeHeadReading keyword type us) rest := by
  obtain ⟨hkeyword, htype⟩ := h
  obtain ⟨u₁, hkeyword, h₁⟩ := takeKeyword_inserted hus hkeyword (by grind)
  obtain ⟨u₂, htype, h₂⟩ := parseTypeClause_inserted ht h₁ htype hlen
  exact ⟨u₂, ⟨hkeyword, htype⟩, h₂⟩

end

/-! ### Expressions -/

section

variable {t : Token} {r : List Token}

mutual

theorem ExpressionReading.inserted (ht : t.kind = .sign .semicolon) {ts us rest : List Token}
    {e : Expression} (h : ExpressionReading ts e rest) (hus : Inserted t r ts us)
    (hlen : r.length ≤ rest.length) : ReadsOn t r (ExpressionReading us e) rest := by
  match h with
  | .assignment hopening h =>
    obtain ⟨u, hread, hrest⟩ := h.inserted ht hus hlen
    rw [← hus.opening_eq (by grind)] at hopening
    exact ⟨u, .assignment hopening hread, hrest⟩
  | .edit hopening htarget hoperator hvalue =>
    obtain ⟨u₁, htarget', h₁⟩ := takeIdent_inserted hus htarget (by grind)
    obtain ⟨u₂, hoperator', h₂⟩ := takeOperator_inserted h₁ hoperator (by grind)
    obtain ⟨u₃, hvalue', h₃⟩ := hvalue.inserted ht h₂ hlen
    rw [← hus.opening_eq (by grind)] at hopening
    exact ⟨u₃, .edit hopening htarget' hoperator' hvalue', h₃⟩
  | .step hopening htarget hfirst hsecond =>
    obtain ⟨u₁, htarget', h₁⟩ := takeIdent_inserted hus htarget (by grind)
    obtain ⟨u₂, hfirst', h₂⟩ := takeSign_inserted h₁ hfirst (by grind)
    obtain ⟨u₃, hsecond', h₃⟩ := takeSign_inserted h₂ hsecond hlen
    rw [← hus.opening_eq (by grind)] at hopening
    exact ⟨u₃, .step hopening htarget' hfirst' hsecond', h₃⟩
  | .operand hopening h =>
    obtain ⟨u, hread, hrest⟩ := h.inserted ht hus hlen
    -- The opening is told by three tokens, and the expression may be shorter than that.
    exact ⟨u, .operand (hus.opening_operand ht (by grind) hopening) hread, hrest⟩
termination_by structural h

theorem AssignmentReading.inserted (ht : t.kind = .sign .semicolon) {ts us rest : List Token}
    {e : Expression} (h : AssignmentReading ts e rest) (hus : Inserted t r ts us)
    (hlen : r.length ≤ rest.length) : ReadsOn t r (AssignmentReading us e) rest := by
  match h with
  | .intro htarget hsign hvalue =>
    obtain ⟨u₁, htarget', h₁⟩ := takeIdent_inserted hus htarget (by grind)
    obtain ⟨u₂, hsign', h₂⟩ := takeSign_inserted h₁ hsign (by grind)
    obtain ⟨u₃, hvalue', h₃⟩ := hvalue.inserted ht h₂ hlen
    exact ⟨u₃, .intro htarget' hsign' hvalue', h₃⟩
termination_by structural h

theorem OperationReading.inserted (ht : t.kind = .sign .semicolon) {parent : Nat}
    {ts us rest : List Token} {e : Expression} (h : OperationReading parent ts e rest)
    (hus : Inserted t r ts us) (hlen : r.length ≤ rest.length) :
    ReadsOn t r (OperationReading parent us e) rest := by
  match h with
  | .leading hleading hoperator hoperand hjoined =>
    obtain ⟨u₁, hoperator', h₁⟩ := takeOperator_inserted hus hoperator (by grind)
    obtain ⟨u₂, hoperand', h₂⟩ := hoperand.inserted ht h₁ (by grind)
    obtain ⟨u₃, hjoined', h₃⟩ := hjoined.inserted ht h₂ hlen
    rw [← hus.leadingOperator?_eq (by grind)] at hleading
    exact ⟨u₃, .leading hleading hoperator' hoperand' hjoined', h₃⟩
  | .plain hleading hoperand hjoined =>
    obtain ⟨u₁, hoperand', h₁⟩ := hoperand.inserted ht hus (by grind)
    obtain ⟨u₂, hjoined', h₂⟩ := hjoined.inserted ht h₁ hlen
    rw [← hus.leadingOperator?_eq (by grind)] at hleading
    exact ⟨u₂, .plain hleading hoperand' hjoined', h₂⟩
termination_by structural h

theorem JoinedReading.inserted (ht : t.kind = .sign .semicolon) {parent : Nat} {left : Expression}
    {ts us rest : List Token} {e : Expression} (h : JoinedReading parent left ts e rest)
    (hus : Inserted t r ts us) (hlen : r.length ≤ rest.length) :
    ReadsOn t r (JoinedReading parent left us e) rest := by
  match h with
  | .done hjoins => exact ⟨us, .done (hus.joiningOperator?_eq_none ht hlen hjoins), hus⟩
  | .joins hjoins hoperator hright hjoined =>
    obtain ⟨u₁, hoperator', h₁⟩ := takeOperator_inserted hus hoperator (by grind)
    obtain ⟨u₂, hright', h₂⟩ := hright.inserted ht h₁ (by grind)
    obtain ⟨u₃, hjoined', h₃⟩ := hjoined.inserted ht h₂ hlen
    rw [joiningOperator?, ← hus.nextKind_eq (by grind), ← joiningOperator?] at hjoins
    exact ⟨u₃, .joins hjoins hoperator' hright' hjoined', h₃⟩
termination_by structural h

theorem PostfixReading.inserted (ht : t.kind = .sign .semicolon) {ts us rest : List Token}
    {e : Expression} (h : PostfixReading ts e rest) (hus : Inserted t r ts us)
    (hlen : r.length ≤ rest.length) : ReadsOn t r (PostfixReading us e) rest := by
  match h with
  | .intro hoperand hsuffixes =>
    obtain ⟨u₁, hoperand', h₁⟩ := hoperand.inserted ht hus (by grind)
    obtain ⟨u₂, hsuffixes', h₂⟩ := hsuffixes.inserted ht h₁ hlen
    exact ⟨u₂, .intro hoperand' hsuffixes', h₂⟩
termination_by structural h

theorem SuffixesReading.inserted (ht : t.kind = .sign .semicolon) {array : Expression}
    {ts us rest : List Token} {e : Expression} (h : SuffixesReading array ts e rest)
    (hus : Inserted t r ts us) (hlen : r.length ≤ rest.length) :
    ReadsOn t r (SuffixesReading array us e) rest := by
  match h with
  | .done hbracket => exact ⟨us, .done (hus.nextKind_ne hlen (by simp [ht]) hbracket), hus⟩
  | .last hsuffix hlast =>
    obtain ⟨u₁, hsuffix', h₁⟩ := hsuffix.inserted ht hus hlen
    exact ⟨u₁, .last hsuffix' hlast, h₁⟩
  | .more hsuffix hmore hsuffixes =>
    obtain ⟨u₁, hsuffix', h₁⟩ := hsuffix.inserted ht hus (by grind)
    obtain ⟨u₂, hsuffixes', h₂⟩ := hsuffixes.inserted ht h₁ hlen
    exact ⟨u₂, .more hsuffix' hmore hsuffixes', h₂⟩
termination_by structural h

theorem SuffixReading.inserted (ht : t.kind = .sign .semicolon) {array : Expression}
    {ts us rest : List Token} {e : Expression} (h : SuffixReading array ts e rest)
    (hus : Inserted t r ts us) (hlen : r.length ≤ rest.length) :
    ReadsOn t r (SuffixReading array us e) rest := by
  match h with
  | .access hopening hindex hclosing hassign =>
    obtain ⟨u₁, hopening', h₁⟩ := takeSign_inserted hus hopening (by grind)
    obtain ⟨u₂, hindex', h₂⟩ := hindex.inserted ht h₁ (by grind)
    obtain ⟨u₃, hclosing', h₃⟩ := takeSign_inserted h₂ hclosing hlen
    have hassign' := h₃.nextKind_ne hlen (by simp [ht]) hassign
    exact ⟨u₃, .access hopening' hindex' hclosing' hassign', h₃⟩
  | .assignment hopening hindex hclosing hsign hvalue =>
    obtain ⟨u₁, hopening', h₁⟩ := takeSign_inserted hus hopening (by grind)
    obtain ⟨u₂, hindex', h₂⟩ := hindex.inserted ht h₁ (by grind)
    obtain ⟨u₃, hclosing', h₃⟩ := takeSign_inserted h₂ hclosing (by grind)
    obtain ⟨u₄, hsign', h₄⟩ := takeSign_inserted h₃ hsign (by grind)
    obtain ⟨u₅, hvalue', h₅⟩ := hvalue.inserted ht h₄ hlen
    exact ⟨u₅, .assignment hopening' hindex' hclosing' hsign' hvalue', h₅⟩
termination_by structural h

theorem PrimaryReading.inserted (ht : t.kind = .sign .semicolon) {ts us rest : List Token}
    {e : Expression} (h : PrimaryReading ts e rest) (hus : Inserted t r ts us)
    (hlen : r.length ≤ rest.length) : ReadsOn t r (PrimaryReading us e) rest := by
  match h with
  | .parenthesized hopening hinner hclosing =>
    obtain ⟨u₁, hopening', h₁⟩ := takeSign_inserted hus hopening (by grind)
    obtain ⟨u₂, hinner', h₂⟩ := hinner.inserted ht h₁ (by grind)
    obtain ⟨u₃, hclosing', h₃⟩ := takeSign_inserted h₂ hclosing hlen
    exact ⟨u₃, .parenthesized hopening' hinner' hclosing', h₃⟩
  | .this hkeyword =>
    obtain ⟨u₁, hkeyword', h₁⟩ := takeKeyword_inserted hus hkeyword hlen
    exact ⟨u₁, .this hkeyword', h₁⟩
  | .make h =>
    obtain ⟨u₁, hread, h₁⟩ := h.inserted ht hus hlen
    exact ⟨u₁, .make hread, h₁⟩
  | .reference hampersand hname =>
    obtain ⟨u₁, hampersand', h₁⟩ := takeSign_inserted hus hampersand (by grind)
    obtain ⟨u₂, hname', h₂⟩ := takeIdent_inserted h₁ hname hlen
    exact ⟨u₂, .reference hampersand' hname', h₂⟩
  | .dereference hstar hoperand =>
    obtain ⟨u₁, hstar', h₁⟩ := takeSign_inserted hus hstar (by grind)
    obtain ⟨u₂, hoperand', h₂⟩ := hoperand.inserted ht h₁ hlen
    exact ⟨u₂, .dereference hstar' hoperand', h₂⟩
  | .main hmain h =>
    obtain ⟨u₁, hread, h₁⟩ := h.inserted ht hus hlen
    rw [← hus.atMain_eq (by grind)] at hmain
    exact ⟨u₁, .main hmain hread, h₁⟩
  | .named hkind hmain h =>
    obtain ⟨u₁, hread, h₁⟩ := h.inserted ht hus hlen
    have hlt := h.length_lt
    rw [← hus.nextKind_eq (by omega)] at hkind
    exact ⟨u₁, .named hkind (hus.atMain_false ht (by omega) hmain) hread, h₁⟩
  | @PrimaryReading.literal token rest hliteral =>
    have hus : Inserted t r ([token] ++ rest) us := hus
    obtain ⟨u₁, rfl, h₁⟩ := hus.behind hlen
    exact ⟨u₁, .literal hliteral, h₁⟩
termination_by structural h

theorem MainReading.inserted (ht : t.kind = .sign .semicolon) {ts us rest : List Token}
    {e : Expression} (h : MainReading ts e rest) (hus : Inserted t r ts us)
    (hlen : r.length ≤ rest.length) : ReadsOn t r (MainReading us e) rest := by
  match h with
  | .call hkeyword hcall =>
    obtain ⟨u₁, hkeyword', h₁⟩ := takeIdent_inserted hus hkeyword (by grind)
    obtain ⟨u₂, hcall', h₂⟩ := hcall.inserted ht h₁ hlen
    exact ⟨u₂, .call hkeyword' hcall', h₂⟩
  | .assignment hkeyword hassignment =>
    obtain ⟨u₁, hkeyword', h₁⟩ := takeIdent_inserted hus hkeyword (by grind)
    obtain ⟨u₂, hassignment', h₂⟩ := hassignment.inserted ht h₁ hlen
    exact ⟨u₂, .assignment hkeyword' hassignment', h₂⟩
  | .name hkeyword hname hcall hassign =>
    obtain ⟨u₁, hkeyword', h₁⟩ := takeIdent_inserted hus hkeyword (by grind)
    obtain ⟨u₂, hname', h₂⟩ := takeIdent_inserted h₁ hname hlen
    exact ⟨u₂, .name hkeyword' hname' (h₂.nextKind_ne hlen (by simp [ht]) hcall)
      (h₂.nextKind_ne hlen (by simp [ht]) hassign), h₂⟩
termination_by structural h

theorem NamedReading.inserted (ht : t.kind = .sign .semicolon) {ts us rest : List Token}
    {e : Expression} (h : NamedReading ts e rest) (hus : Inserted t r ts us)
    (hlen : r.length ≤ rest.length) : ReadsOn t r (NamedReading us e) rest := by
  match h with
  | .call h =>
    obtain ⟨u, hread, hrest⟩ := h.inserted ht hus hlen
    exact ⟨u, .call hread, hrest⟩
  | .packageCall h =>
    obtain ⟨u, hread, hrest⟩ := h.inserted ht hus hlen
    exact ⟨u, .packageCall hread, hrest⟩
  | .member h =>
    obtain ⟨u, hread, hrest⟩ := h.inserted ht hus hlen
    exact ⟨u, .member hread, hrest⟩
  | .cast hbracket hhead harguments =>
    obtain ⟨u₁, h₁, _, hhead'⟩ := tryCastHead?_inserted hus hhead (by grind)
    obtain ⟨u₂, harguments', h₂⟩ := harguments.inserted ht h₁ hlen
    exact ⟨u₂, .cast (hbracket.inserted hus hhead (by grind)) hhead' harguments', h₂⟩
  | .element hhead harray hsuffix =>
    obtain ⟨u₁, harray', h₁⟩ := takeIdent_inserted hus harray (by grind)
    obtain ⟨u₂, hsuffix', h₂⟩ := hsuffix.inserted ht h₁ hlen
    exact ⟨u₂, .element (tryCastHead?_none_inserted ht hus hhead) harray' hsuffix', h₂⟩
  | .name hname hother =>
    obtain ⟨u₁, hname', h₁⟩ := takeIdent_inserted hus hname hlen
    refine ⟨u₁, .name hname' fun sign hsign => ?_, h₁⟩
    refine h₁.nextKind_ne hlen ?_ (hother sign hsign)
    rintro hkind
    rw [ht] at hkind
    cases hkind
    simp at hsign
termination_by structural h

theorem CallReading.inserted (ht : t.kind = .sign .semicolon) {ts us rest : List Token}
    {e : Expression} (h : CallReading ts e rest) (hus : Inserted t r ts us)
    (hlen : r.length ≤ rest.length) : ReadsOn t r (CallReading us e) rest := by
  match h with
  | .intro hcallee hopening harguments =>
    obtain ⟨u₁, hcallee', h₁⟩ := takeIdent_inserted hus hcallee (by grind)
    obtain ⟨u₂, hopening', h₂⟩ := takeSign_inserted h₁ hopening (by grind)
    obtain ⟨u₃, harguments', h₃⟩ := harguments.inserted ht h₂ hlen
    exact ⟨u₃, .intro hcallee' hopening' harguments', h₃⟩
termination_by structural h

theorem PackageCallReading.inserted (ht : t.kind = .sign .semicolon) {ts us rest : List Token}
    {e : Expression} (h : PackageCallReading ts e rest) (hus : Inserted t r ts us)
    (hlen : r.length ≤ rest.length) : ReadsOn t r (PackageCallReading us e) rest := by
  match h with
  | .intro hpackage hseparator hcallee hopening harguments =>
    obtain ⟨u₁, hpackage', h₁⟩ := takeIdent_inserted hus hpackage (by grind)
    obtain ⟨u₂, hseparator', h₂⟩ := takeSign_inserted h₁ hseparator (by grind)
    obtain ⟨u₃, hcallee', h₃⟩ := takeIdent_inserted h₂ hcallee (by grind)
    obtain ⟨u₄, hopening', h₄⟩ := takeSign_inserted h₃ hopening (by grind)
    obtain ⟨u₅, harguments', h₅⟩ := harguments.inserted ht h₄ hlen
    exact ⟨u₅, .intro hpackage' hseparator' hcallee' hopening' harguments', h₅⟩
termination_by structural h

theorem MemberOfReading.inserted (ht : t.kind = .sign .semicolon) {ts us rest : List Token}
    {e : Expression} (h : MemberOfReading ts e rest) (hus : Inserted t r ts us)
    (hlen : r.length ≤ rest.length) : ReadsOn t r (MemberOfReading us e) rest := by
  match h with
  | .call hobject hperiod hcallee hopening harguments =>
    obtain ⟨u₁, hobject', h₁⟩ := takeIdent_inserted hus hobject (by grind)
    obtain ⟨u₂, hperiod', h₂⟩ := takeSign_inserted h₁ hperiod (by grind)
    obtain ⟨u₃, hcallee', h₃⟩ := takeIdent_inserted h₂ hcallee (by grind)
    obtain ⟨u₄, hopening', h₄⟩ := takeSign_inserted h₃ hopening (by grind)
    obtain ⟨u₅, harguments', h₅⟩ := harguments.inserted ht h₄ hlen
    exact ⟨u₅, .call hobject' hperiod' hcallee' hopening' harguments', h₅⟩
  | .assignment hobject hperiod hfield hsign hvalue =>
    obtain ⟨u₁, hobject', h₁⟩ := takeIdent_inserted hus hobject (by grind)
    obtain ⟨u₂, hperiod', h₂⟩ := takeSign_inserted h₁ hperiod (by grind)
    obtain ⟨u₃, hfield', h₃⟩ := takeIdent_inserted h₂ hfield (by grind)
    obtain ⟨u₄, hsign', h₄⟩ := takeSign_inserted h₃ hsign (by grind)
    obtain ⟨u₅, hvalue', h₅⟩ := hvalue.inserted ht h₄ hlen
    exact ⟨u₅, .assignment hobject' hperiod' hfield' hsign' hvalue', h₅⟩
  | .access hobject hperiod hfield hcall hassign =>
    obtain ⟨u₁, hobject', h₁⟩ := takeIdent_inserted hus hobject (by grind)
    obtain ⟨u₂, hperiod', h₂⟩ := takeSign_inserted h₁ hperiod (by grind)
    obtain ⟨u₃, hfield', h₃⟩ := takeIdent_inserted h₂ hfield hlen
    exact ⟨u₃, .access hobject' hperiod' hfield' (h₃.nextKind_ne hlen (by simp [ht]) hcall)
      (h₃.nextKind_ne hlen (by simp [ht]) hassign), h₃⟩
termination_by structural h

theorem MakeReading.inserted (ht : t.kind = .sign .semicolon) {ts us rest : List Token}
    {e : Expression} (h : MakeReading ts e rest) (hus : Inserted t r ts us)
    (hlen : r.length ≤ rest.length) : ReadsOn t r (MakeReading us e) rest := by
  match h with
  | .array hhead hgeneric hopening hparts =>
    obtain ⟨u₁, hhead', h₁⟩ := hhead.inserted ht hus (by grind)
    obtain ⟨u₂, hopening', h₂⟩ := takeSign_inserted h₁ hopening (by grind)
    obtain ⟨u₃, hparts', h₃⟩ := hparts.inserted ht h₂ hlen
    exact ⟨u₃, .array hhead' hgeneric hopening' hparts', h₃⟩
  | .struct hhead hgeneric hopening hparts =>
    obtain ⟨u₁, hhead', h₁⟩ := hhead.inserted ht hus (by grind)
    obtain ⟨u₂, hopening', h₂⟩ := takeSign_inserted h₁ hopening (by grind)
    obtain ⟨u₃, hparts', h₃⟩ := hparts.inserted ht h₂ hlen
    exact ⟨u₃, .struct hhead' hgeneric hopening' hparts', h₃⟩
  | .sized hhead hgeneric hopening hlength hclosing =>
    obtain ⟨u₁, hhead', h₁⟩ := hhead.inserted ht hus (by grind)
    obtain ⟨u₂, hopening', h₂⟩ := takeSign_inserted h₁ hopening (by grind)
    obtain ⟨u₃, hlength', h₃⟩ := hlength.inserted ht h₂ (by grind)
    obtain ⟨u₄, hclosing', h₄⟩ := takeSign_inserted h₃ hclosing hlen
    exact ⟨u₄, .sized hhead' hgeneric hopening' hlength' hclosing', h₄⟩
  | .called hhead hgeneric hopening harguments =>
    obtain ⟨u₁, hhead', h₁⟩ := hhead.inserted ht hus (by grind)
    obtain ⟨u₂, hopening', h₂⟩ := takeSign_inserted h₁ hopening (by grind)
    obtain ⟨u₃, harguments', h₃⟩ := harguments.inserted ht h₂ hlen
    exact ⟨u₃, .called hhead' hgeneric hopening' harguments', h₃⟩
termination_by structural h

theorem ArgumentsReading.inserted (ht : t.kind = .sign .semicolon) {closing : Sign}
    {ts us rest : List Token} {arguments : List Expression} {stop : Span}
    (h : ArgumentsReading closing ts arguments stop rest) (hus : Inserted t r ts us)
    (hlen : r.length ≤ rest.length) :
    ReadsOn t r (ArgumentsReading closing us arguments stop) rest := by
  match h with
  | .none hstop =>
    obtain ⟨u₁, hstop', h₁⟩ := takeSign_inserted hus hstop hlen
    exact ⟨u₁, .none hstop', h₁⟩
  | .last hkind hfirst hcomma hstop =>
    obtain ⟨u₁, hfirst', h₁⟩ := hfirst.inserted ht hus (by grind)
    obtain ⟨u₂, hstop', h₂⟩ := takeSign_inserted h₁ hstop hlen
    rw [← hus.nextKind_eq (by grind)] at hkind
    exact ⟨u₂, .last hkind hfirst' (h₁.nextKind_ne (by grind) (by simp [ht]) hcomma) hstop', h₂⟩
  | .more hkind hfirst hcomma hothers =>
    obtain ⟨u₁, hfirst', h₁⟩ := hfirst.inserted ht hus (by grind)
    obtain ⟨u₂, hcomma', h₂⟩ := takeSign_inserted h₁ hcomma (by grind)
    obtain ⟨u₃, hothers', h₃⟩ := hothers.inserted ht h₂ hlen
    rw [← hus.nextKind_eq (by grind)] at hkind
    exact ⟨u₃, .more hkind hfirst' hcomma' hothers', h₃⟩
termination_by structural h

end

theorem parseExpression_inserted (ht : t.kind = .sign .semicolon) {ts us rest : List Token}
    (h : Inserted t r ts us) {e : Expression} (hp : ReadsAs parseExpression ts e rest)
    (hlen : r.length ≤ rest.length) : ReadsOn t r (ReadsAs parseExpression us e) rest := by
  obtain ⟨rest', hread, hrest⟩ := (parseExpression_iff.1 hp).inserted ht h hlen
  exact ⟨rest', hread.reads, hrest⟩

end

end TodLang
