import Mathlib.Data.List.TakeWhile
import Simulcast.Http.Endpoint
import Simulcast.Proofs.Text.Utf8
/-!
# Where session links lead

A viewer is told two targets with its name in them.  If the name is plain, made of letters,
digits and dashes as generated names are, nothing in the target needs an escape: the path is
the target itself, it splits at its slashes, and the parameter decodes to the name
(`Http.ofTarget?_layersTarget`, `Http.ofTarget?_layerTarget`, `Http.pathParameter_of_plain`).
-/

namespace Simulcast

/-! ### Plain names -/

/-- A letter, a digit or a dash. -/
def isPlainChar (c : Char) : Bool := c.isAlphanum || c = '-'

/-- A name that is not empty and needs no escapes. -/
def isPlainName (name : String) : Bool := name ≠ "" && name.toList.all isPlainChar

theorem toNat_of_plain {c : Char} (h : isPlainChar c = true) :
    c.toNat = 45 ∨ (48 ≤ c.toNat ∧ c.toNat ≤ 57) ∨ (65 ≤ c.toNat ∧ c.toNat ≤ 90) ∨
      (97 ≤ c.toNat ∧ c.toNat ≤ 122) := by
  change ((decide (65 ≤ c.val ∧ c.val ≤ 90) || (decide (97 ≤ c.val) && decide (c.val ≤ 122)) ||
    (decide (48 ≤ c.val) && decide (c.val ≤ 57))) || decide (c = '-')) = true at h
  simp only [Bool.or_eq_true, Bool.and_eq_true, decide_eq_true_eq, UInt32.le_iff_toNat_le] at h
  rcases h with ((⟨hl, hu⟩ | ⟨hl, hu⟩) | ⟨hl, hu⟩) | rfl
  · exact .inr (.inr (.inl ⟨hl, hu⟩))
  · exact .inr (.inr (.inr ⟨hl, hu⟩))
  · exact .inr (.inl ⟨hl, hu⟩)
  · exact .inl rfl

theorem ne_of_plain {c d : Char} (h : isPlainChar c = true) (hd : isPlainChar d = false) :
    c ≠ d := by
  rintro rfl
  rw [h] at hd
  exact Bool.noConfusion hd

theorem plain_of_mem {name : String} (h : isPlainName name = true) {c : Char}
    (hc : c ∈ name.toList) : isPlainChar c = true := by
  rw [isPlainName, Bool.and_eq_true, List.all_eq_true] at h
  exact h.2 c hc

theorem ne_empty_of_plain {name : String} (h : isPlainName name = true) : name ≠ "" := by
  rw [isPlainName, Bool.and_eq_true, decide_eq_true_eq] at h
  exact h.1

namespace Http

/-! ### Parameters -/

theorem pathParameter_of_plain {name : String} (h : isPlainName name = true) (what : String) :
    pathParameter what name = .ok name := by
  have hpercent : 37 ∉ Utf8.encode name := by
    intro hm
    obtain ⟨c, hc, hbyte⟩ := List.mem_flatMap.mp hm
    have hrange := toNat_of_plain (plain_of_mem h hc)
    rw [Utf8.encodeChar_of_ascii (by omega), List.mem_singleton] at hbyte
    have hnat : c.toNat.toUInt8.toNat = 37 := by
      rw [← hbyte]
      rfl
    have hsame : c.toNat.toUInt8.toNat = c.toNat := Nat.mod_eq_of_lt (by omega)
    omega
  rw [pathParameter, Percent.decode_eq_self hpercent, Utf8.decodeString_encode]

/-! ### Paths -/

theorem isPathChar_of_plain {c : Char} (h : isPlainChar c = true) : isPathChar c = true := by
  have hrange := toNat_of_plain h
  have hlow : 0x20 < c.toNat := by omega
  have hno : "#<>?`".toList.contains c = false := by
    rw [← Bool.not_eq_true, List.contains_iff_mem]
    have hspecial : "#<>?`".toList.all (fun d => !isPlainChar d) = true := rfl
    intro hm
    have hbad : isPlainChar c = false := by simpa using List.all_eq_true.mp hspecial c hm
    exact ne_of_plain h hbad rfl
  rw [isPathChar, hno, decide_eq_true hlow]
  rfl

/-- A path without a query is its own path. -/
theorem pathOf?_of_path {path : List Char} (h : ∀ c ∈ path, isPathChar c = true) :
    pathOf? path = some path := by
  have hplain : ∀ c ∈ path, decide (c ≠ '?' ∧ c ≠ '#') = true := by
    intro c hc
    refine decide_eq_true ⟨?_, ?_⟩ <;>
    · rintro rfl
      exact absurd (h _ hc) (by decide)
  have htake : path.takeWhile (fun c => c ≠ '?' ∧ c ≠ '#') = path :=
    List.takeWhile_eq_self_iff.mpr hplain
  have hdrop : path.dropWhile (fun c => c ≠ '?' ∧ c ≠ '#') = [] :=
    List.dropWhile_eq_nil_iff.mpr hplain
  have hall : path.all isPathChar = true := List.all_eq_true.mpr h
  simp only [pathOf?, htake, hdrop, hall, List.all_nil, Bool.and_self, if_true]

/-! ### Session links -/

/-- Where a viewer finds the layers of its stream. -/
def layersTarget (id : ViewerId) : String := "/whep/sse/" ++ id

/-- Where a viewer chooses a layer. -/
def layerTarget (id : ViewerId) : String := "/whep/layer/" ++ id

/-- The links of a session lead to its targets. -/
theorem sessionLinks_eq (id : ViewerId) : sessionLinks id = [
    ("link", "<" ++ layersTarget id ++
      ">; rel=\"urn:ietf:params:whep:ext:core:server-sent-events\"; events=\"layers\""),
    ("link", "<" ++ layerTarget id ++ ">; rel=\"urn:ietf:params:whep:ext:core:layer\"")] := by
  simp only [sessionLinks, layersTarget, layerTarget, ← String.append_assoc]
  rfl

/-- A target of three segments, the last of which is a plain name. -/
theorem segments_of_plain (first second : String) {name : String} (h : isPlainName name = true)
    (hfirst : first.toList.all isPlainChar = true)
    (hsecond : second.toList.all isPlainChar = true) :
    segments ("/" ++ first ++ "/" ++ second ++ "/" ++ name) = some [first, second, name] := by
  have hparts : ∀ part ∈ [first.toList, second.toList, name.toList], ∀ c ∈ part,
      isPlainChar c = true := by
    simp only [List.mem_cons, List.not_mem_nil, or_false]
    rintro part (rfl | rfl | rfl) c hc
    · exact List.all_eq_true.mp hfirst c hc
    · exact List.all_eq_true.mp hsecond c hc
    · exact plain_of_mem h hc
  have hjoin : ['/'].intercalate [first.toList, second.toList, name.toList]
      = first.toList ++ '/' :: (second.toList ++ '/' :: name.toList) := by
    simp [List.intercalate, List.intersperse]
  have htext : ("/" ++ first ++ "/" ++ second ++ "/" ++ name).toList
      = '/' :: ['/'].intercalate [first.toList, second.toList, name.toList] := by
    rw [hjoin]
    simp [String.toList_append]
  have hpath : ∀ c ∈ '/' :: ['/'].intercalate [first.toList, second.toList, name.toList],
      isPathChar c = true := by
    intro c hc
    have hslash : isPathChar '/' = true := by decide
    rw [hjoin] at hc
    simp only [List.mem_cons, List.mem_append] at hc
    rcases hc with rfl | hc | rfl | hc | rfl | hc
    · exact hslash
    · exact isPathChar_of_plain (List.all_eq_true.mp hfirst c hc)
    · exact hslash
    · exact isPathChar_of_plain (List.all_eq_true.mp hsecond c hc)
    · exact hslash
    · exact isPathChar_of_plain (plain_of_mem h hc)
  have hsplit : (['/'].intercalate [first.toList, second.toList, name.toList]).splitOn '/'
      = [first.toList, second.toList, name.toList] := by
    refine List.splitOn_intercalate '/' (fun part hpart hm => ?_) (List.cons_ne_nil _ _)
    exact absurd (hparts part hpart '/' hm) (by decide)
  simp only [segments, targetPath?, htext, pathOf?_of_path hpath, hsplit, List.map_cons,
    List.map_nil, String.ofList_toList]

section

variable {id : ViewerId}

theorem ofTarget?_layersTarget (h : isPlainName id = true) :
    Route.ofTarget? (layersTarget id) = some (.layers id) := by
  have hsegments : segments (layersTarget id) = some ["whep", "sse", id] :=
    segments_of_plain "whep" "sse" h (by decide) (by decide)
  simp only [Route.ofTarget?, hsegments, if_neg (ne_empty_of_plain h)]

theorem ofTarget?_layerTarget (h : isPlainName id = true) :
    Route.ofTarget? (layerTarget id) = some (.layer id) := by
  have hsegments : segments (layerTarget id) = some ["whep", "layer", id] :=
    segments_of_plain "whep" "layer" h (by decide) (by decide)
  simp only [Route.ofTarget?, hsegments, if_neg (ne_empty_of_plain h)]

end

end Http

end Simulcast
