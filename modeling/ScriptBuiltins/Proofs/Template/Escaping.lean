import ScriptBuiltins.Proofs.Render.Binding
import ScriptBuiltins.Proofs.Template.Joining

/-!
Escaping. A text with its percent signs doubled is formatted to itself whatever the arguments, and
without arguments nothing else is formatted at all.
-/
namespace ScriptBuiltins

def escaped (cs : List Char) : List Char := cs.flatMap fun c => if c = '%' then ['%', '%'] else [c]

def escape (s : String) : String := String.ofList (escaped s.toList)

theorem escaped_cons (c : Char) (cs : List Char) :
    escaped (c :: cs) = (if c = '%' then ['%', '%'] else [c]) ++ escaped cs :=
  List.flatMap_cons

theorem escaped_append (as bs : List Char) : escaped (as ++ bs) = escaped as ++ escaped bs :=
  List.flatMap_append

theorem length_escaped (cs : List Char) : (escaped cs).length = cs.length + cs.count '%' := by
  induction cs with
  | nil => rfl
  | cons c cs ih =>
    by_cases hc : c = '%'
    · simp [escaped_cons, hc, ih]
      omega
    · simp [escaped_cons, hc, ih]
      omega

theorem escaped_eq_self_iff (cs : List Char) : escaped cs = cs ↔ '%' ∉ cs := by
  constructor
  · intro h
    have hlength := length_escaped cs
    rw [h] at hlength
    exact List.count_eq_zero.mp (by omega)
  · intro h
    induction cs with
    | nil => rfl
    | cons c cs ih =>
      rw [List.mem_cons, not_or] at h
      rw [escaped_cons, if_neg (Ne.symm h.1), ih h.2, List.singleton_append]

namespace Piece

def IsDirective : Piece → Prop
  | .directive _ => True
  | _ => False

def plain : Piece → List Char
  | .literal cs => cs
  | .escape => ['%']
  | .directive _ => []

theorem text_eq_escaped {p : Piece} (h : p.WellFormed) (hp : ¬ p.IsDirective) :
    p.text = escaped p.plain := by
  cases p with
  | literal cs => exact ((escaped_eq_self_iff cs).mpr h.2).symm
  | escape => rfl
  | directive f => exact absurd trivial hp

theorem flatMap_text_eq_escaped {pieces : List Piece} (h : ∀ p ∈ pieces, p.WellFormed)
    (hp : ∀ p ∈ pieces, ¬ p.IsDirective) :
    pieces.flatMap text = escaped (pieces.flatMap plain) := by
  induction pieces with
  | nil => rfl
  | cons p ps ih =>
    obtain ⟨hwell, hrest⟩ := List.forall_mem_cons.mp h
    obtain ⟨hfirst, hplain⟩ := List.forall_mem_cons.mp hp
    rw [List.flatMap_cons, List.flatMap_cons, escaped_append, text_eq_escaped hwell hfirst,
      ih hrest hplain]

/-- A plain character in front of pieces prolongs the first of them or is a piece by itself. -/
theorem Decompose.exists_cons {pieces : List Piece} {cs : List Char} {c : Char}
    (h : Decompose pieces cs) (hp : ∀ p ∈ pieces, ¬ p.IsDirective) (hc : c ≠ '%') :
    ∃ longer, Decompose longer (c :: cs) ∧ (∀ p ∈ longer, ¬ p.IsDirective) ∧
      longer.flatMap plain = c :: pieces.flatMap plain := by
  have halone (hstop : Stops (· != '%') cs) : ∃ longer, Decompose longer (c :: cs) ∧
      (∀ p ∈ longer, ¬ p.IsDirective) ∧ longer.flatMap plain = c :: pieces.flatMap plain := by
    refine ⟨.literal [c] :: pieces, h.cons ⟨by simp, by simpa using Ne.symm hc⟩ fun _ => hstop,
      List.forall_mem_cons.mpr ⟨id, hp⟩, rfl⟩
  cases pieces with
  | nil => exact halone (h.stops_iff.mpr (by simp))
  | cons p ps =>
    cases p with
    | escape => exact halone (h.stops_iff.mpr (by simp [IsLiteral]))
    | directive f => exact absurd trivial (hp (.directive f) (by simp))
    | literal run =>
      obtain ⟨hne, hplain⟩ : run ≠ [] ∧ '%' ∉ run := h.wellFormed (.literal run) (by simp)
      obtain ⟨hapart, -⟩ := List.isChain_cons.mp h.apart
      have hstop : Stops (· != '%') (ps.flatMap Piece.text) :=
        h.tail.stops_iff.mpr fun q hq hliteral => hapart q hq ⟨trivial, hliteral⟩
      have hlonger : WellFormed (.literal (c :: run)) := by
        refine ⟨by simp, ?_⟩
        rw [List.mem_cons, not_or]
        exact ⟨Ne.symm hc, hplain⟩
      rw [← h.text]
      exact ⟨.literal (c :: run) :: ps, h.tail.cons hlonger fun _ => hstop,
        List.forall_mem_cons.mpr ⟨id, (List.forall_mem_cons.mp hp).2⟩, rfl⟩

theorem exists_pieces_escaped (cs : List Char) : ∃ pieces, Decompose pieces (escaped cs) ∧
    (∀ p ∈ pieces, ¬ p.IsDirective) ∧ pieces.flatMap plain = cs := by
  induction cs with
  | nil => exact ⟨[], decompose_nil, by simp, rfl⟩
  | cons c cs ih =>
    obtain ⟨pieces, hpieces, hplain, hjoin⟩ := ih
    rw [escaped_cons]
    by_cases hc : c = '%'
    · subst hc
      exact ⟨.escape :: pieces, hpieces.cons trivial False.elim,
        List.forall_mem_cons.mpr ⟨id, hplain⟩, by simp [plain, hjoin]⟩
    · rw [if_neg hc, ← hjoin]
      exact hjoin ▸ hpieces.exists_cons hplain hc

end Piece

theorem Directive.failure?_ne_none (d : Directive) (config : Config) (k offset : ℕ) :
    d.failure? config [] none k offset ≠ none := by
  unfold failure?
  repeat' split
  all_goals simp_all

theorem Rendering.exists_of_result_prepend {text all : List Char} {r : Rendering}
    (h : (r.prepend text).result = .ok all) : ∃ rest, r.result = .ok rest := by
  rw [result_prepend] at h
  cases hr : r.result with
  | error e =>
    rw [hr] at h
    cases h
  | ok rest => exact ⟨rest, rfl⟩

namespace Segment
open Piece

/-- Pieces without directives are rendered to what they stand for, whatever the arguments. -/
theorem result_renderAll_plain (config : Config) (arguments : Arguments) {pieces : List Piece}
    (hp : ∀ p ∈ pieces, ¬ p.IsDirective) (offset : ℕ) :
    (renderAll config arguments (segments offset pieces)).result = .ok (pieces.flatMap plain) := by
  induction pieces generalizing offset with
  | nil => rfl
  | cons p ps ih =>
    obtain ⟨hfirst, hrest⟩ := List.forall_mem_cons.mp hp
    have hresult := ih hrest (offset + utf8Length p.text)
    cases p with
    | literal cs =>
      simp only [segments, Piece.segment, renderAll, Rendering.result_prepend, hresult]
      simp [Except.map, plain]
    | escape =>
      simp only [segments, Piece.segment, renderAll, Rendering.result_prepend, hresult]
      rfl
    | directive f => exact absurd trivial hfirst

/-- Only pieces without directives are rendered when there are no arguments. -/
theorem not_isDirective_of_result {config : Config} {pieces : List Piece} {offset : ℕ}
    {all : List Char}
    (h : (renderAll config ⟨[], 0, none⟩ (segments offset pieces)).result = .ok all) :
    ∀ p ∈ pieces, ¬ p.IsDirective := by
  induction pieces generalizing offset all with
  | nil => simp
  | cons p ps ih =>
    cases p with
    | literal cs =>
      obtain ⟨rest, hrest⟩ := Rendering.exists_of_result_prepend h
      exact List.forall_mem_cons.mpr ⟨id, ih hrest⟩
    | escape =>
      obtain ⟨rest, hrest⟩ := Rendering.exists_of_result_prepend h
      exact List.forall_mem_cons.mpr ⟨id, ih hrest⟩
    | directive f =>
      have hfails := result_renderAll_directive config [] none 0 f.reading offset
        (segments (offset + utf8Length (Piece.directive f).text) ps)
      obtain ⟨e, he⟩ := Option.ne_none_iff_exists'.mp
        (f.reading.failure?_ne_none config 0 offset)
      rw [he] at hfails
      exact absurd (hfails.symm.trans h) nofun

end Segment

theorem Arguments.ofValues_nil (named : Bool) : ofValues [] named = ⟨[], 0, none⟩ := by
  cases named <;> rfl

theorem result_formatWith_escaped {t : String} {cs : List Char} (h : t.toList = escaped cs)
    (arguments : List Value) (config : Config) :
    (formatWith t arguments config).result = .ok cs := by
  obtain ⟨pieces, hpieces, hplain, rfl⟩ := Piece.exists_pieces_escaped cs
  rw [formatWith, Template.parse_pieces (h ▸ hpieces)]
  exact Segment.result_renderAll_plain config _ hplain 0

theorem toList_of_result_formatWith {t : String} {cs : List Char} {config : Config}
    (h : (formatWith t [] config).result = .ok cs) : t.toList = escaped cs := by
  cases hparse : Template.parse t with
  | error e =>
    rw [formatWith, hparse] at h
    cases h
  | ok template =>
    obtain ⟨pieces, hpieces, rfl⟩ := Template.exists_pieces_of_parse hparse
    have hresult : (Segment.renderAll config ⟨[], 0, none⟩ (Piece.segments 0 pieces)).result
        = .ok cs := by
      rw [← h, formatWith, hparse, ← Arguments.ofValues_nil]
      rfl
    have hplain := Segment.not_isDirective_of_result hresult
    rw [Segment.result_renderAll_plain config _ hplain] at hresult
    obtain rfl := Except.ok.inj hresult
    rw [← hpieces.text, Piece.flatMap_text_eq_escaped hpieces.wellFormed hplain]

theorem result_formatWith_nil_iff (t : String) (cs : List Char) (config : Config) :
    (formatWith t [] config).result = .ok cs ↔ t.toList = escaped cs :=
  ⟨toList_of_result_formatWith, fun h => result_formatWith_escaped h [] config⟩

/-- Doubling percent signs escapes any text, whatever the arguments. Without arguments only escaped
texts are formatted, so a text without percent signs is the only kind that stays as it is. -/
theorem formatWith_escape :
    (∀ (s : String) (arguments : List Value) (config : Config),
      (formatWith (escape s) arguments config).result = .ok s.toList) ∧
    (∀ (t s : String) (config : Config),
      (formatWith t [] config).result = .ok s.toList ↔ t = escape s) ∧
    ∀ (t : String) (config : Config),
      (formatWith t [] config).result = .ok t.toList ↔ '%' ∉ t.toList := by
  refine ⟨fun s arguments config =>
    result_formatWith_escaped (String.toList_ofList) arguments config, fun t s config => ?_,
    fun t config => ?_⟩
  · rw [result_formatWith_nil_iff, escape, ← String.toList_inj, String.toList_ofList]
  · rw [result_formatWith_nil_iff, eq_comm, escaped_eq_self_iff]

example : escape "%(x)s 100%" = "%%(x)s 100%%" := rfl

end ScriptBuiltins
