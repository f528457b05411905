import TodLang.Proofs.Symbol.Fingerprint
/-!
Fingerprints as a code for types and signatures. If the names in types are written like names of the
language, their fingerprints are one text exactly when the types agree at every level. Among
functions of one name, whatever that name is, the fingerprint then tells the signature: the name in
front is one text on both sides, and the rest can be read back. The main result is
`fingerprint_faithful`.
-/

namespace TodLang

/-- Types have one fingerprint if and only if they agree. -/
theorem Ty.Named.fingerprint_eq_iff_agrees {t u : Ty} (ht : t.Named) (hu : u.Named) :
    t.fingerprint = u.fingerprint ↔ t.Agrees u := by
  constructor
  · intro h
    have hletters := congrArg (fun text : String => text.toList ++ []) h
    exact (ht.agrees_of_append hu hletters).1
  · exact ht.fingerprint_eq

namespace FunctionSymbol

/-- Whether all names in the types of a function's parameters, and in the type that it gives back,
are written like names of the language. -/
structure SignatureNamed (f : FunctionSymbol) : Prop where
  parameters : ∀ t ∈ f.parameterTypes, t.Named
  returnType : f.returnType.Named

/-- Two functions have one signature if the types of their parameters agree one by one, and the
types that they give back agree. -/
structure SameSignature (f g : FunctionSymbol) : Prop where
  parameters : List.Forall₂ Ty.Agrees f.parameterTypes g.parameterTypes
  returnType : f.returnType.Agrees g.returnType

/-- What stands behind the name in a function's fingerprint. -/
def signatureLetters (f : FunctionSymbol) : List Char :=
  (f.parameterTypes.flatMap fun t => t.fingerprint.toList) ++ '-' :: '>' ::
    f.returnType.fingerprint.toList

/-- Behind one name, fingerprints differ only in the signatures. -/
theorem fingerprint_eq_iff_signatureLetters {f g : FunctionSymbol} (hname : f.name = g.name) :
    f.fingerprint = g.fingerprint ↔ f.signatureLetters = g.signatureLetters := by
  rw [← String.toList_inj, fingerprint_toList, fingerprint_toList, hname]
  simp only [List.cons.injEq, true_and, List.append_cancel_left_eq]
  rfl

namespace SignatureNamed

variable {f g : FunctionSymbol}

theorem signatureLetters_eq_iff (hf : f.SignatureNamed) (hg : g.SignatureNamed) :
    f.signatureLetters = g.signatureLetters ↔ f.SameSignature g := by
  constructor
  · intro h
    obtain ⟨hparameters, hreturn⟩ :=
      agrees_of_signature hf.parameters hg.parameters hf.returnType hg.returnType h
    exact ⟨hparameters, hreturn⟩
  · rintro ⟨hparameters, hreturn⟩
    have hfingerprints := map_eq_of_forall₂ hparameters fun t ht _ htu =>
      (hf.parameters t ht).fingerprint_eq htu
    have hletters := congrArg (List.flatMap String.toList) hfingerprints
    rw [List.flatMap_map, List.flatMap_map] at hletters
    rw [signatureLetters, signatureLetters, hletters, hf.returnType.fingerprint_eq hreturn]

end SignatureNamed

end FunctionSymbol

/-- The fingerprints of types whose names are names of the language are one text if and only if the
types agree: in whether they are objects, in package and name, and in the types that they are made
from, one by one. Functions of one name over such types have one fingerprint if and only if they
have one signature. -/
theorem fingerprint_faithful :
    (∀ t u : Ty, t.Named → u.Named → (t.fingerprint = u.fingerprint ↔ t.Agrees u)) ∧
    ∀ f g : FunctionSymbol, f.name = g.name → f.SignatureNamed → g.SignatureNamed →
      (f.fingerprint = g.fingerprint ↔ f.SameSignature g) := by
  refine ⟨fun t u ht hu => ht.fingerprint_eq_iff_agrees hu, fun f g hname hf hg => ?_⟩
  rw [FunctionSymbol.fingerprint_eq_iff_signatureLetters hname]
  exact hf.signatureLetters_eq_iff hg

/-- The types `io::a[io::x]` and `io::a_T_x`, and the functions named `f` that take them. -/
theorem fingerprint_faithful_mark :
    ∃ (t u : Ty) (f g : FunctionSymbol), t.Named ∧ u.Named ∧ f.name = "f" ∧ g.name = "f" ∧
      f.parameterTypes = [t, u] ∧ g.parameterTypes = [u, t] ∧ f.SignatureNamed ∧
      g.SignatureNamed ∧ (t.fingerprint = u.fingerprint ↔ t.Agrees u) ∧
      (f.fingerprint = g.fingerprint ↔ f.SameSignature g) := by
  let plain (name : String) (arguments : List Ty) : Ty :=
    ⟨name, arguments, false, true, some "io", none⟩
  let taking (types : List Ty) : FunctionSymbol :=
    { name := "f"
      parameters := types.map fun type => ⟨"p", false, type, 1, none⟩
      returnType := .void }
  have hpackage : ∀ p ∈ some "io", IsIdentifier p := by
    rintro p ⟨⟩
    decide
  have hx : (plain "x" []).Named := .intro (by decide) hpackage (by simp [plain])
  have ht : (plain "a" [plain "x" []]).Named :=
    .intro (by decide) hpackage (by simpa [plain] using hx)
  have hu : (plain "a_T_x" []).Named := .intro (by decide) hpackage (by simp [plain])
  have hvoid : Ty.void.Named :=
    .intro (by decide) (by simp [Ty.void, Ty.builtin]) (by simp [Ty.void, Ty.builtin])
  have hf : (taking [plain "a" [plain "x" []], plain "a_T_x" []]).SignatureNamed :=
    ⟨by simpa [FunctionSymbol.parameterTypes, taking] using ⟨ht, hu⟩, hvoid⟩
  have hg : (taking [plain "a_T_x" [], plain "a" [plain "x" []]]).SignatureNamed :=
    ⟨by simpa [FunctionSymbol.parameterTypes, taking] using ⟨hu, ht⟩, hvoid⟩
  exact ⟨_, _, _, _, ht, hu, rfl, rfl, rfl, rfl, hf, hg, fingerprint_faithful.1 _ _ ht hu,
    fingerprint_faithful.2 _ _ rfl hf hg⟩

end TodLang
