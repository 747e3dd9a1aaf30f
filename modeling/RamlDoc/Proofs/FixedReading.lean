import Mathlib
import RamlDoc.Fixup.Document
import RamlDoc.Proofs.LinesAligned
import RamlDoc.Proofs.ScansAligned
import RamlDoc.Proofs.TreeStyles

/-!
# Reading a text with and without the text pass

The text pass puts decimals in quotes. Reading a text behind the pass has the same outcome as
reading the text itself exactly if the reader finds the same tokens, up to the style of decimals, or
refuses both texts (`readAlike_fixText_iff`). The pass goes by lines and not by tokens, so this fails
where a decimal stands inside a longer scalar (`read_fixText_ne_of_tagged_block`).
-/

namespace RamlDoc.Yaml

variable {text other : List Char} {tree : Tree}

/-- A text with a tree has tokens, and no character that the reader refuses. -/
theorem scan_of_read (h : read text = .ok tree) :
    text.all isAllowed = true ∧ ∃ tokens, scan text = .ok tokens := by
  rw [read_eq] at h
  obtain ⟨tokens, htokens, -⟩ := exists_of_bind_eq_ok h
  refine ⟨?_, tokens, htokens⟩
  by_contra hnot
  rw [scan, if_neg hnot] at htokens
  cases htokens

/-- Aligned texts with the same tree have the same tokens up to the style of decimals. -/
theorem sameTokens_of_read (haligned : Aligned .line text other) (h : read text = .ok tree)
    (h' : read other = .ok tree) : SameTokens text other := by
  obtain ⟨-, tokens, htokens⟩ := scan_of_read h
  obtain ⟨-, others, hothers⟩ := scan_of_read h'
  rcases scan_aligned haligned tokens others htokens hothers with hsame | hpart
  · exact ⟨tokens, others, htokens, hothers, hsame⟩
  · exact absurd h' (read_ne_of_part htokens hothers hpart h)

end RamlDoc.Yaml

namespace RamlDoc.Fixup

open Yaml

variable {text : List Char}

/-- In a text without two carriage returns in front of a line feed, the pass keeps the outcome of
reading exactly if it changes nothing in the tokens but the style of decimals, or if the text is
refused before and behind the pass. -/
theorem readAlike_fixText_iff (hreturns : ¬['\r', '\r', '\n'] <:+: text) :
    ReadAlike text (fixText text).text ↔
      SameTokens text (fixText text).text ∨
        ((∃ error, read text = .error error) ∧
          ∃ error, read (fixText text).text = .error error) := by
  constructor
  · rintro (⟨tree, h, h'⟩ | ⟨error, error', h, h'⟩)
    · exact .inl (sameTokens_of_read (aligned_fixText (scan_of_read h).1 hreturns) h h')
    · exact .inr ⟨⟨error, h⟩, error', h'⟩
  · rintro (h | ⟨⟨error, h⟩, error', h'⟩)
    · exact readAlike_of_sameTokens h
    · exact .inr ⟨error, error', h, h'⟩

theorem readAlike_fixText_decimal :
    ¬['\r', '\r', '\n'] <:+: "a: 1,5\n".toList ∧
      (fixText "a: 1,5\n".toList).text = "a: \"1,5\"\n".toList ∧
      ReadAlike "a: 1,5\n".toList (fixText "a: 1,5\n".toList).text := by
  have hreturns : ¬['\r', '\r', '\n'] <:+: "a: 1,5\n".toList := by decide
  have htext : (fixText "a: 1,5\n".toList).text = "a: \"1,5\"\n".toList := by cbv
  refine ⟨hreturns, htext, (readAlike_fixText_iff hreturns).2 (.inl ?_)⟩
  rw [htext]
  refine ⟨[.blockMappingStart, .key, .scalar ['a'] true, .value, .scalar ['1', ',', '5'] true,
      .blockEnd, .streamEnd],
    [.blockMappingStart, .key, .scalar ['a'] true, .value, .scalar ['1', ',', '5'] false,
      .blockEnd, .streamEnd], ?_, ?_, ?_⟩
  · cbv
  · cbv
  · rfl

/-- The pass does not see that a block scalar begins behind a tag, so it quotes a decimal inside. -/
theorem read_fixText_ne_of_tagged_block :
    Yaml.read "a: !t |\n  b: 1,5\n".toList =
        .ok (.mapping [(.string "a", .tagged "t" (.string "b: 1,5\n"))]) ∧
      Yaml.read (fixText "a: !t |\n  b: 1,5\n".toList).text =
        .ok (.mapping [(.string "a", .tagged "t" (.string "b: \"1,5\"\n"))]) := by
  constructor <;> cbv

end RamlDoc.Fixup
