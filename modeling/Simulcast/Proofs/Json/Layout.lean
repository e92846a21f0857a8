import Simulcast.Proofs.Json.Written
/-!
# Objects of texts, however they are laid out

`Json.SpellsObject` lists the ways to write an object whose members are texts: with blanks around
every part, and with any spelling of the keys and texts.  All of them are decoded
(`Json.decode_of_spells`), and a written object is one of them (`Json.spellsObject_written`).
-/

namespace Simulcast

namespace Json

/-! ### Ways to write an object -/

/-- The bytes that may stand for a member of an object. -/
inductive SpellsMember : List UInt8 → String × String → Prop where
  | intro {before name between behind text after : List UInt8} {member : String × String}
      (hbefore : Blanks before) (hname : SpellsText name member.1.toList)
      (hbetween : Blanks between) (hbehind : Blanks behind)
      (htext : SpellsText text member.2.toList) (hafter : Blanks after) :
      SpellsMember (before ++ 34 :: (name ++ 34 :: (between ++ 58 ::
        (behind ++ (34 :: (text ++ [34]) ++ after))))) member

/-- The bytes that may stand for an object of texts. -/
inductive SpellsObject : List UInt8 → List (String × String) → Prop where
  | intro {before after : List UInt8} {parts : List (List UInt8)}
      {members : List (String × String)} (hbefore : Blanks before)
      (hparts : List.Forall₂ SpellsMember parts members) (hafter : Blanks after) :
      SpellsObject (before ++ (123 :: ([44].intercalate parts ++ [125]) ++ after)) members

/-! ### Reading and writing -/

/-- **However an object of texts is laid out, it is decoded.** -/
theorem decode_of_spells {bytes : List UInt8} {members : List (String × String)}
    (h : SpellsObject bytes members) :
    decode bytes = .ok (.object (members.map fun m => (m.1, .text m.2))) := by
  cases h with
  | intro hbefore hparts hafter =>
    refine decode_of_reads hbefore hafter 1 (Nat.succ_le_succ (Nat.zero_le _)) fun depth => ?_
    refine reads_laid (List.forall₂_map_right_iff.mpr (hparts.imp fun part member hpart => ?_))
    cases hpart with
    | intro hbefore hname hbetween hbehind htext hafter =>
      exact .intro hbefore hname hbetween hbehind (reads_text htext) hafter

example : decode (Utf8.encode "\x7b \"encodingId\" : \"\\u0071\" \x7d ")
    = .ok (.object [("encodingId", .text "q")]) := by rfl

theorem spellsObject_written (members : List (String × String)) :
    SpellsObject (Utf8.encode (object (members.map fun m => (m.1, quote m.2)))) members := by
  have hmember : ∀ m : String × String, SpellsMember (memberBytes (m.1, quote m.2)) m := by
    intro m
    have hspells := SpellsMember.intro blanks_nil (spellsText_quoted m.1) blanks_nil blanks_nil
      (spellsText_quoted m.2) blanks_nil
    rw [memberBytes, encode_quote]
    rwa [List.append_nil] at hspells
  have hparts : List.Forall₂ SpellsMember
      ((members.map fun m => (m.1, quote m.2)).map memberBytes) members := by
    rw [List.map_map, List.forall₂_map_left_iff, List.forall₂_same]
    exact fun m _ => hmember m
  have hspells := SpellsObject.intro blanks_nil hparts blanks_nil
  rw [List.append_nil] at hspells
  rw [encode_object]
  exact hspells

end Json

end Simulcast
