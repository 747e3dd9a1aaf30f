import Mathlib.Data.List.Nodup
import Mathlib.Data.List.Pairwise
import RamlDoc.Model.Lookup
import RamlDoc.Proofs.KeyedBlocks

/-!
# Responses and their status codes

A status code may be spelled as a number or as a text, so two keys of a mapping may stand for one
code though they are distinct. The responses with a code are read off the entries whose keys stand
for it, in order (`ReadInOrder.forall₂_declaredUnder`), and a lookup finds the first of them.
Numbers that stand for one code are the same (`eq_of_code?_number`). So the codes of the responses
are distinct exactly if no text stands for the code of another key, and then each response is found
(`nodup_codes_iff`).
-/

namespace RamlDoc

open Yaml

/-- Results that a function picks from distinct items are distinct exactly if no two items have
one. -/
theorem nodup_filterMap_iff {α β : Type} {pick : α → Option β} {items : List α}
    (hitems : items.Nodup) :
    (items.filterMap pick).Nodup ↔ ∀ first ∈ items, ∀ second ∈ items, ∀ result,
      pick first = some result → pick second = some result → first = second := by
  rw [List.Nodup, List.pairwise_filterMap]
  constructor
  · intro h first hfirst second hsecond result hpick hpick'
    by_contra hne
    have hsymm : Std.Symm fun a b : α => ∀ c, pick a = some c → ∀ d, pick b = some d → c ≠ d :=
      ⟨fun a b hab c hc d hd heq => hab d hd c hc heq.symm⟩
    exact h.forall hfirst hsecond hne result hpick result hpick' rfl
  · intro h
    refine hitems.pairwise_of_forall_ne fun a ha b hb hne c hc d hd heq => ?_
    exact hne (h a ha b hb c hc (heq ▸ hd))

theorem rel_head? {α β : Type} {related : α → β → Prop} {as : List α} {bs : List β}
    (h : List.Forall₂ related as bs) : Option.Rel related as.head? bs.head? := by
  cases h with
  | nil => exact .none
  | cons hhead _ => exact .some hhead

namespace Response

variable {source : Source} {entries codes : Entries} {items : List Response}
  {responses : Block Response} {code : Nat}

/-! ## Spellings of a status code -/

theorem eq_of_code?_number {number : Number} (h : code? (.number number) = some code) :
    number = .integer code := by
  obtain ⟨hnatural, -⟩ := Option.filter_eq_some_iff.1 h
  cases number with
  | float value => cases hnatural
  | integer value =>
    change (if 0 ≤ value then some value.toNat else none) = some code at hnatural
    split at hnatural
    next hvalue =>
      rw [← Option.some.inj hnatural, Int.toNat_of_nonneg hvalue]
    next => cases hnatural

/-- A key that stands for a status code is a number or a text. -/
theorem key_cases_of_code? {key : Tree} (h : code? key = some code) :
    key = .number (.integer code) ∨ ∃ text, key = .string text := by
  cases key with
  | number number => exact .inl (by rw [eq_of_code?_number h])
  | string text => exact .inr ⟨text, rfl⟩
  | _ => cases h

/-- No text among the keys of a mapping stands for the status code of another key. -/
def SpelledOnce (codes : Entries) : Prop :=
  ∀ text, .string text ∈ codes.map Prod.fst → ∀ key ∈ codes.map Prod.fst, ∀ code,
    code? (.string text) = some code → code? key = some code → key = .string text

/-- Only a text can stand for the code of another key. -/
theorem spelledOnce_iff : SpelledOnce codes ↔
    ∀ first ∈ codes.map Prod.fst, ∀ second ∈ codes.map Prod.fst, ∀ code,
      code? first = some code → code? second = some code → first = second := by
  constructor
  · -- Two numbers that stand for one code are the same, so one of two other keys is a text.
    intro h first hfirst second hsecond code hcode hcode'
    rcases key_cases_of_code? hcode with rfl | ⟨text, rfl⟩
    · rcases key_cases_of_code? hcode' with rfl | ⟨text, rfl⟩
      · rfl
      · exact h text hsecond _ hfirst code hcode' hcode
    · exact (h text hfirst second hsecond code hcode hcode').symm
  · intro h text htext key hkey code hcode hcode'
    exact h key hkey _ htext code hcode' hcode

/-! ## What is declared under a status code -/

/-- The entries whose keys stand for a status code. -/
def declaredUnder (codes : Entries) (code : Nat) : Entries :=
  codes.filter fun entry => code? entry.1 = some code

/-- A response is read off an entry: its code is the one that the key stands for. -/
def ReadFrom (source : Source) (entry : Tree × Tree) (response : Response) : Prop :=
  code? entry.1 = some response.code ∧ (read source response.code entry.2).result = .ok response

theorem yields_code (source : Source) (code : Nat) (tree : Tree) :
    Yields (fun response => response.code = code) (read source code tree) :=
  .bind fun _ _ => .bind fun _ _ => .bind fun _ _ => .bind fun _ _ => .pure rfl

theorem readFrom_of_outcome? {entry : Tree × Tree} {response : Response}
    (h : outcome? source entry = some (.ok response)) : ReadFrom source entry response := by
  obtain ⟨code, hcode, hread⟩ := Option.map_eq_some_iff.1 h
  obtain rfl := yields_code source code entry.2 response hread
  exact ⟨hcode, hread⟩

/-- Responses are read off the entries of a mapping whose keys stand for status codes, in order. -/
def ReadInOrder (source : Source) (codes : Entries) (items : List Response) : Prop :=
  List.Forall₂ (ReadFrom source) (codes.filter fun entry => (code? entry.1).isSome) items

theorem readInOrder_of_collect (h : collect (outcome? source) codes = .ok items) :
    ReadInOrder source codes items := by
  have hpicked : (fun entry : Tree × Tree => (code? entry.1).isSome) =
      fun entry => (outcome? source entry).isSome :=
    funext fun entry => (Option.isSome_map ..).symm
  have hrel := forall₂_filterMap (outcome? source) codes
  rw [collect_eq_ok_iff.1 h, List.forall₂_map_right_iff, ← hpicked] at hrel
  exact hrel.imp fun _ _ => readFrom_of_outcome?

theorem readInOrder_of_readAll
    (hfield : Entries.field? entries "responses" = some (.mapping codes))
    (hread : (readAll source entries).result = .ok responses) :
    ReadInOrder source codes responses.elements := by
  unfold readAll at hread
  rw [hfield] at hread
  change (Block.ofList <$> ofCodes source codes).result = _ at hread
  rw [Reading.result_map, result_ofCodes] at hread
  cases hcollect : collect (outcome? source) codes with
  | error error =>
    rw [hcollect] at hread
    cases hread
  | ok items =>
    rw [hcollect] at hread
    obtain rfl := Except.ok.inj hread
    rw [Block.elements_ofList]
    exact readInOrder_of_collect hcollect

/-- The responses with a status code are read off the entries whose keys stand for it, in order. -/
theorem ReadInOrder.forall₂_declaredUnder (h : ReadInOrder source codes items) (code : Nat) :
    List.Forall₂ (ReadFrom source) (declaredUnder codes code)
      (items.filter fun response => response.code = code) := by
  have hdeclared : (codes.filter fun entry => (code? entry.1).isSome).filter
      (fun entry => code? entry.1 = some code) = declaredUnder codes code := by
    rw [List.filter_filter]
    refine List.filter_congr fun entry _ => ?_
    cases code? entry.1 <;> simp
  rw [← hdeclared]
  refine List.rel_filter (fun entry response hread => ?_) h
  change decide (code? entry.1 = some code) = true ↔ decide (response.code = code) = true
  rw [decide_eq_true_eq, decide_eq_true_eq, hread.1, Option.some.injEq]

/-- The status codes of responses are those that the keys stand for. -/
theorem ReadInOrder.codes_eq (h : ReadInOrder source codes items) :
    items.map (·.code) = (codes.map Prod.fst).filterMap code? := by
  have hread : List.Forall₂ (fun entry code => code? entry.1 = some code)
      (codes.filter fun entry => (code? entry.1).isSome) (items.map (·.code)) :=
    List.forall₂_map_right_iff.2 (h.imp fun _ _ hread => hread.1)
  rw [List.filterMap_map]
  exact List.right_unique_forall₂' (fun _ _ _ hfirst hsecond =>
    Option.some.inj (hfirst.symm.trans hsecond)) hread (forall₂_filterMap _ codes)

/-- A lookup finds the response of the first entry that is declared under its code. -/
theorem ReadInOrder.rel_withCode? (h : ReadInOrder source codes responses.elements) (code : Nat) :
    Option.Rel (ReadFrom source) (declaredUnder codes code).head? (withCode? responses code) := by
  rw [withCode?, Block.find?, ← List.head?_filter]
  exact rel_head? (h.forall₂_declaredUnder code)

/-- Distinct keys give distinct status codes exactly if no text stands for the code of another key.
A lookup finds the response of the first entry declared under its code, and where the codes are
distinct there is no other and each response is found. -/
theorem nodup_codes_iff (hfield : Entries.field? entries "responses" = some (.mapping codes))
    (hkeys : (codes.map Prod.fst).Nodup) (hread : (readAll source entries).result = .ok responses) :
    ((responses.elements.map (·.code)).Nodup ↔ SpelledOnce codes) ∧
      (∀ code, Option.Rel (ReadFrom source) (declaredUnder codes code).head?
        (withCode? responses code)) ∧
      (SpelledOnce codes → (∀ code, (declaredUnder codes code).length ≤ 1) ∧
        ∀ response ∈ responses.elements, withCode? responses response.code = some response) := by
  have hrel := readInOrder_of_readAll hfield hread
  have hnodup : (responses.elements.map (·.code)).Nodup ↔ SpelledOnce codes := by
    rw [hrel.codes_eq, nodup_filterMap_iff hkeys, spelledOnce_iff]
  refine ⟨hnodup, hrel.rel_withCode?, fun hspelled => ⟨fun code => ?_, ?_⟩⟩
  · calc (declaredUnder codes code).length
        = (responses.elements.filter fun response => response.code = code).length :=
          (hrel.forall₂_declaredUnder code).length_eq
      _ = (responses.elements.map (·.code)).count code := by
          rw [List.count_eq_length_filter, List.filter_map, List.length_map]
          rfl
      _ ≤ 1 := List.nodup_iff_count_le_one.1 (hnodup.2 hspelled) code
  · intro response hresponse
    exact find?_eq_some_of_nodup (hnodup.2 hspelled) hresponse

/-- The entries of responses with codes as a number and as a text. -/
def missingItem : Entries :=
  [(.number (.integer 200), .null),
    (.string " +0404", .mapping [(.string "description", .string "No such item")]),
    (.string "default", .null)]

/-- The responses that they declare. -/
def missingItemResponses : Block Response :=
  some [{ code := 200 }, { code := 404, description := some "No such item" }]

/-- Where the number and the text stand for different codes, both responses are found. -/
theorem nodup_codes_missingItem :
    Entries.field? [(.string "responses", .mapping missingItem)] "responses" =
        some (.mapping missingItem) ∧
      (missingItem.map Prod.fst).Nodup ∧
      (readAll ⟨.empty, .detached {}⟩ [(.string "responses", .mapping missingItem)]).result =
        .ok missingItemResponses ∧
      SpelledOnce missingItem ∧
      withCode? missingItemResponses 404 =
        some { code := 404, description := some "No such item" } := by
  have hfield : Entries.field? [(.string "responses", .mapping missingItem)] "responses" =
      some (.mapping missingItem) := by decide
  have hkeys : (missingItem.map Prod.fst).Nodup := by decide
  have hread : (readAll ⟨.empty, .detached {}⟩
      [(.string "responses", .mapping missingItem)]).result = .ok missingItemResponses := rfl
  obtain ⟨hnodup, -, hfound⟩ := nodup_codes_iff hfield hkeys hread
  have hspelled : SpelledOnce missingItem := hnodup.1 (by decide)
  refine ⟨hfield, hkeys, hread, hspelled, ?_⟩
  exact (hfound hspelled).2 _ (List.mem_cons_of_mem _ List.mem_cons_self)

/-! ## Two spellings of one code -/

/-- The entries of responses with one code as a number and as a text. -/
def spelledTwice : Entries :=
  [(.number (.integer 200), .mapping [(.string "description", .string "An item")]),
    (.string "200", .mapping [(.string "description", .string "All items")])]

/-- Responses may have one code though the keys of the mapping are distinct. -/
theorem not_nodup_codes_of_spelledTwice :
    ¬∀ (source : Source) (entries codes : Entries) (responses : Block Response),
      Entries.field? entries "responses" = some (.mapping codes) → (codes.map Prod.fst).Nodup →
        (readAll source entries).result = .ok responses →
        (responses.elements.map (·.code)).Nodup := by
  intro h
  have hnodup := h ⟨.empty, .detached {}⟩ [(.string "responses", .mapping spelledTwice)]
    spelledTwice
    (some [{ code := 200, description := some "An item" },
      { code := 200, description := some "All items" }]) (by decide) (by decide) rfl
  exact absurd hnodup (by decide)

end Response

end RamlDoc
