import ScriptBuiltins.Proofs.CallSite.Checking
import ScriptBuiltins.Proofs.CallSite.Expansion

/-!
The shape of a call site: a string, and arguments with commas between them. What has another shape
is rejected for it, whatever the template in it says.
-/
namespace ScriptBuiltins

def CallError.isShape : CallError → Bool
  | .template _ => false
  | .tooFew _ _ => false
  | _ => true

namespace CallSite

/-- How arguments are written: with commas between them, and one or none behind the last. -/
@[mk_iff]
structure WrittenArguments (arguments tokens : List Token) : Prop where
  comma_not_mem : .comma ∉ arguments
  tokens_eq : tokens = arguments.intersperse .comma ∨
    arguments ≠ [] ∧ tokens = arguments.intersperse .comma ++ [.comma]

inductive Written : CallSite → List Token → Prop
  | alone {template : String} : Written ⟨template, []⟩ [.string template]
  | applied {template : String} {arguments tokens : List Token}
    (h : WrittenArguments arguments tokens) :
    Written ⟨template, arguments⟩ (.string template :: .comma :: tokens)

theorem writtenArguments_nil_iff {tokens : List Token} :
    WrittenArguments [] tokens ↔ tokens = [] := by
  refine ⟨fun h => ?_, fun h => ⟨List.not_mem_nil, .inl h⟩⟩
  obtain htokens | ⟨hne, -⟩ := h.tokens_eq
  · exact htokens
  · exact absurd rfl hne

theorem writtenArguments_cons_iff {argument : Token} {others tokens : List Token} :
    WrittenArguments (argument :: others) tokens ↔ argument ≠ .comma ∧
      (others = [] ∧ tokens = [argument] ∨
        ∃ rest, tokens = argument :: .comma :: rest ∧ WrittenArguments others rest) := by
  have hcomma : .comma ∉ argument :: others ↔ argument ≠ .comma ∧ .comma ∉ others := by
    rw [List.mem_cons, not_or, ne_comm]
  rw [writtenArguments_iff, hcomma, and_assoc]
  refine and_congr_right fun _ => ?_
  cases others with
  | nil => simp [writtenArguments_nil_iff]
  | cons next others =>
    simp only [writtenArguments_iff, List.intersperse_cons_cons, List.cons_append, ne_eq,
      reduceCtorEq, not_false_eq_true, true_and, false_and, false_or]
    constructor
    · rintro ⟨hothers, rfl | rfl⟩
      · exact ⟨_, rfl, hothers, .inl rfl⟩
      · exact ⟨_, rfl, hothers, .inr rfl⟩
    · rintro ⟨_, rfl, hothers, rfl | rfl⟩
      · exact ⟨hothers, .inl rfl⟩
      · exact ⟨hothers, .inr rfl⟩

theorem map_eq_ok_iff {α β : Type} {f : α → β} {result : Except CallError α} {b : β} :
    result.map f = .ok b ↔ ∃ a, result = .ok a ∧ f a = b := by
  cases result <;> simp [Except.map]

theorem map_eq_error_iff {α β : Type} {f : α → β} {result : Except CallError α} {e : CallError} :
    result.map f = .error e ↔ result = .error e := by
  cases result <;> simp [Except.map]

theorem parseArguments_singleton {argument : Token} (hne : argument ≠ .comma) :
    parseArguments [argument] = .ok [argument] := by
  cases argument with
  | comma => exact absurd rfl hne
  | _ => rfl

theorem parseArguments_cons {argument : Token} (hne : argument ≠ .comma) (tokens : List Token) :
    parseArguments (argument :: .comma :: tokens)
      = (parseArguments tokens).map (argument :: ·) := by
  cases argument with
  | comma => exact absurd rfl hne
  | _ => rfl

theorem written_of_parseArguments {tokens arguments : List Token}
    (h : parseArguments tokens = .ok arguments) : WrittenArguments arguments tokens := by
  induction tokens using parseArguments.induct generalizing arguments with
  | case1 =>
    cases h
    exact writtenArguments_nil_iff.mpr rfl
  | case2 tokens => cases h
  | case3 argument hne =>
    rw [parseArguments_singleton hne] at h
    cases h
    exact writtenArguments_cons_iff.mpr ⟨hne, .inl ⟨rfl, rfl⟩⟩
  | case4 argument rest hne ih =>
    rw [parseArguments_cons hne, map_eq_ok_iff] at h
    obtain ⟨others, hothers, rfl⟩ := h
    exact writtenArguments_cons_iff.mpr ⟨hne, .inr ⟨rest, rfl, ih hothers⟩⟩
  | case5 tokens hnil hcomma hlast hmore =>
    rw [parseArguments.eq_5 tokens hnil hcomma hlast hmore] at h
    cases h

theorem parseArguments_of_written {arguments tokens : List Token}
    (h : WrittenArguments arguments tokens) : parseArguments tokens = .ok arguments := by
  induction arguments generalizing tokens with
  | nil =>
    obtain rfl := writtenArguments_nil_iff.mp h
    rfl
  | cons argument others ih =>
    obtain ⟨hne, ⟨rfl, rfl⟩ | ⟨rest, rfl, hrest⟩⟩ := writtenArguments_cons_iff.mp h
    · exact parseArguments_singleton hne
    · rw [parseArguments_cons hne, ih hrest]
      rfl

theorem parse_iff_written {tokens : List Token} {site : CallSite} :
    parse tokens = .ok site ↔ Written site tokens := by
  constructor
  · intro h
    unfold parse at h
    split at h
    · cases h
    · cases h
      exact .alone
    · obtain ⟨arguments, harguments, rfl⟩ := map_eq_ok_iff.mp h
      exact .applied (written_of_parseArguments harguments)
    · cases h
    · cases h
  · intro h
    cases h with
    | alone => rfl
    | applied h =>
      rw [parse, parseArguments_of_written h]
      rfl

theorem isShape_of_parseArguments {tokens : List Token} {e : CallError}
    (h : parseArguments tokens = .error e) : e.isShape := by
  induction tokens using parseArguments.induct generalizing e with
  | case1 => cases h
  | case2 tokens =>
    cases h
    rfl
  | case3 argument hne =>
    rw [parseArguments_singleton hne] at h
    cases h
  | case4 argument rest hne ih =>
    rw [parseArguments_cons hne, map_eq_error_iff] at h
    exact ih h
  | case5 tokens hnil hcomma hlast hmore =>
    rw [parseArguments.eq_5 tokens hnil hcomma hlast hmore] at h
    cases h
    rfl

theorem isShape_of_parse {tokens : List Token} {e : CallError} (h : parse tokens = .error e) :
    e.isShape := by
  unfold parse at h
  split at h
  · cases h
    rfl
  · cases h
  · exact isShape_of_parseArguments (map_eq_error_iff.mp h)
  · cases h
    rfl
  · cases h
    rfl

/-- The tokens with another template, if there is one in front. -/
def retitled (template : String) : List Token → List Token
  | .string _ :: rest => .string template :: rest
  | tokens => tokens

theorem parse_retitled (template : String) (tokens : List Token) :
    parse (retitled template tokens) = (parse tokens).map fun site => { site with template } := by
  unfold retitled
  split
  · next rest =>
    cases rest with
    | nil => rfl
    | cons second rest =>
      cases second with
      | comma =>
        rw [parse, parse]
        cases parseArguments rest <;> rfl
      | _ => rfl
  · next hstring =>
    cases tokens with
    | nil => rfl
    | cons first rest =>
      cases first with
      | string text => exact absurd rfl (hstring text rest)
      | _ => rfl

theorem check_of_parse_error {tokens : List Token} {e : CallError} (h : parse tokens = .error e) :
    check tokens = ⟨[], .error e⟩ := by
  rw [check, h]

theorem not_isShape_of_check {tokens : List Token} {site : CallSite}
    (hsite : parse tokens = .ok site) {e : CallError} (h : (check tokens).result = .error e) :
    ¬ e.isShape := by
  rw [result_check hsite] at h
  split at h
  · cases h
    exact Bool.false_ne_true
  · split at h
    · cases h
      exact Bool.false_ne_true
    · cases h

theorem parse_of_check {tokens : List Token} {site : CallSite}
    (h : (check tokens).result = .ok site) : parse tokens = .ok site := by
  cases hparse : parse tokens with
  | error e =>
    rw [check_of_parse_error hparse] at h
    cases h
  | ok read =>
    rw [result_check hparse] at h
    split at h
    · cases h
    · split at h
      · cases h
      · exact h

theorem exists_parse_error {tokens : List Token} (hnone : ∀ site, ¬ Written site tokens) :
    ∃ e, parse tokens = .error e := by
  cases hparse : parse tokens with
  | error e => exact ⟨e, rfl⟩
  | ok site => exact absurd (parse_iff_written.mp hparse) (hnone site)

/-- A call site is read from exactly the tokens that it is written as, and what it expands to is
read back as the site: the template is the same text, and each argument is made into a value once
and in its place. Tokens that are no call site are rejected for their shape, and then with the same
error whatever the template is. -/
theorem check_shape (tokens : List Token) :
    (∀ site, parse tokens = .ok site ↔ Written site tokens) ∧
    (∀ site, (check tokens).result = .ok site → Written site tokens ∧
      site.expansion = callOpening ++ literalQuoted site.template.toList ++ listOpening
        ++ valueComma.intercalate (site.arguments.map converted) ++ listClosing ∧
      ((∀ name, .identifier name ∈ site.arguments → IsIdentifier name.toList) →
        ofExpansion? site.expansion = some site)) ∧
    ((∃ e : CallError, e.isShape ∧ (check tokens).result = .error e) ↔
      ∀ site, ¬ Written site tokens) ∧
    ((∀ site, ¬ Written site tokens) → (check tokens).events = [] ∧
      ∀ template, check (retitled template tokens) = check tokens) := by
  refine ⟨fun site => parse_iff_written, fun site hsite => ?_, ⟨?_, ?_⟩, fun hnone => ?_⟩
  · have hwritten := parse_iff_written.mp (parse_of_check hsite)
    refine ⟨hwritten, site.expansion_eq, fun hname => ofExpansion?_expansion ?_ hname⟩
    cases hwritten with
    | alone => exact List.not_mem_nil
    | applied h => exact h.comma_not_mem
  · rintro ⟨e, hshape, hresult⟩ site hwritten
    exact not_isShape_of_check (parse_iff_written.mpr hwritten) hresult hshape
  · intro hnone
    obtain ⟨e, hparse⟩ := exists_parse_error hnone
    exact ⟨e, isShape_of_parse hparse, by rw [check_of_parse_error hparse]⟩
  · obtain ⟨e, hparse⟩ := exists_parse_error hnone
    have hretitled (template : String) : parse (retitled template tokens) = .error e := by
      rw [parse_retitled, hparse]
      rfl
    rw [check_of_parse_error hparse]
    exact ⟨rfl, fun template => check_of_parse_error (hretitled template)⟩

/-- A comma behind the last argument is no argument, and a second one is no longer a shape. -/
theorem check_shape_trailing :
    let tokens : List Token :=
      [.string "%s %d\n", .comma, .identifier "x", .comma, .integer (-7), .comma]
    let site : CallSite := ⟨"%s %d\n", [.identifier "x", .integer (-7)]⟩
    (check tokens).result = .ok site ∧ Written site tokens ∧
      ofExpansion? site.expansion = some site ∧
      (∀ other, ¬ Written other (tokens ++ [.comma])) ∧
      check (retitled "%" (tokens ++ [.comma])) = check (tokens ++ [.comma]) := by
  intro tokens site
  have hsite : (check tokens).result = .ok site := by decide +kernel
  obtain ⟨hwritten, -, hread⟩ := (check_shape tokens).2.1 site hsite
  have hname : ∀ name, .identifier name ∈ site.arguments → IsIdentifier name.toList := by
    intro name hmem
    cases hmem with
    | head => exact ⟨by decide, by decide, by decide, by decide⟩
    | tail _ hmem => cases hmem with
      | tail _ hmem => cases hmem
  obtain ⟨-, -, hreject, hretitled⟩ := check_shape (tokens ++ [.comma])
  have hnone := hreject.mp ⟨.noExpression, rfl, by decide +kernel⟩
  exact ⟨hsite, hwritten, hread hname, hnone, (hretitled hnone).2 "%"⟩

end CallSite
end ScriptBuiltins
