import HostPolicy.Proofs.Address.Printed

/-!
# What texts are taken for

The literal of an address, alone or in a block, starts with a digit, which may be hexadecimal, or
with a colon. Any other text is a glob if it is wild, and a domain if it is not. Whatever a text is
taken for is shown as a text that is taken for the same.
-/

namespace HostPolicy

/-! ### Texts that are no addresses -/

/-- A character that no address literal starts with. -/
structure StartsNoAddress (c : Char) : Prop where
  not_hex : Text.isHex c = false
  ne_colon : c ≠ ':'

namespace StartsNoAddress

variable {c : Char} (h : StartsNoAddress c) (cs : List Char)

include h

theorem not_digit : c.isDigit = false :=
  Text.isDigit_of_isHex_eq_false h.not_hex

theorem readV4_eq_none (form : Address.Form) : Address.readV4 form (c :: cs) = none := by
  simp [Address.readV4, Address.readDotted, Address.readOctet, h.not_digit]

theorem readV6_eq_none (form : Address.Form) : Address.readV6 form (c :: cs) = none := by
  have hgroups : Address.readGroups form 8 true (c :: cs) = ([], false, c :: cs) := by
    simp [Address.readGroups, Address.readDottedGroups, Address.readDotted, Address.readOctet,
      h.not_digit, Address.readGroup, h.not_hex]
  simp only [Address.readV6, hgroups]
  simp [h.ne_colon]

theorem parse_eq : Pattern.parse (String.ofList (c :: cs)) =
    if (c :: cs).any Pattern.isWild then .glob (String.ofList (c :: cs))
    else .domain (String.ofList (c :: cs)) := by
  have haddress : Address.parse? (String.ofList (c :: cs)) = none := by
    simp [Address.parse?, h.readV4_eq_none, h.readV6_eq_none, Address.wholly]
  have hblock : Block.parse? (String.ofList (c :: cs)) = none := by
    simp [Block.parse?, Block.readV4, Block.readV6, h.readV4_eq_none, h.readV6_eq_none,
      Address.wholly]
  simp only [Pattern.parse, haddress, hblock, String.toList_ofList]

end StartsNoAddress

/-! ### Patterns as they are shown -/

namespace Pattern

theorem parse_cases (text : String) :
    (∃ a, Address.parse? text = some a ∧ parse text = .address a) ∨ (∃ b, parse text = .block b) ∨
      Address.parse? text = none ∧ (parse text = .glob text ∨ parse text = .domain text) := by
  unfold parse
  cases haddress : Address.parse? text with
  | some a => exact Or.inl ⟨a, rfl, rfl⟩
  | none =>
      right
      cases hblock : Block.parse? text with
      | some b => exact Or.inl ⟨b, rfl⟩
      | none =>
          right
          refine ⟨rfl, ?_⟩
          by_cases hwild : text.toList.any isWild
          · exact Or.inl (if_pos hwild)
          · exact Or.inr (if_neg hwild)

theorem parse_text_address (a : Address) : parse (address a).text = address a := by
  simp only [parse, text, Address.parse?_text]

theorem parse_text_block (b : Block) : parse (block b).text = block b :=
  parse_eq_block b.slash_mem_text b.parse?_text

/-- A pattern that was parsed is shown as a text that parses to the same pattern. Every address and
every block is shown as a literal of itself, and all other texts as they are. -/
theorem parse_shown (s : String) :
    parse (parse s).text = parse s ∧
      (∀ a, parse (address a).text = address a) ∧ (∀ b, parse (block b).text = block b) ∧
      ((∃ a, parse s = address a) ∨ (∃ b, parse s = block b) ∨ parse s = glob s ∨
        parse s = domain s) := by
  refine ⟨?_, parse_text_address, parse_text_block, ?_⟩
  · rcases parse_cases s with ⟨a, -, ha⟩ | ⟨b, hb⟩ | ⟨-, hglob | hdomain⟩
    · rw [ha, parse_text_address]
    · rw [hb, parse_text_block]
    · rw [hglob, text, hglob]
    · rw [hdomain, text, hdomain]
  · exact (parse_cases s).imp (fun ⟨a, _, ha⟩ => ⟨a, ha⟩) (Or.imp_right And.right)

example : (parse "010.1.0.7/08").text = "10.1.0.7/8" := by decide

end Pattern

end HostPolicy
