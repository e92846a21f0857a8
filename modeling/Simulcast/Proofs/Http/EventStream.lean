import Simulcast.Http.EventStream
import Simulcast.Proofs.Json.Written
/-!
# The lines of an event

A player cuts an event stream into lines at line feeds, at carriage returns, and at both
together (`Http.eventLines`).  A JSON text has neither, whatever texts are in it, since a string
is written without its control characters (`Http.isLine_quote`).  So an event with such data is
one line with its name, one line with its data, and a blank line (`Http.eventLines_event`), and
the data is not torn apart.

`Http.Conveys` says what a player knows that was sent such an event with the layers of a stream:
the lines tell it that they are layers, and the data which ones.
-/

namespace Simulcast

namespace Http

open Json

/-! ### Lines of a stream -/

/-- Cuts a stream into lines.  `line` holds the line so far, last character first, and `returned`
says that a carriage return has just ended a line; a line feed behind it ends no other one.  A
line that nothing ends is none. -/
def linesFrom (line : List Char) (returned : Bool) : List Char → List (List Char)
  | [] => []
  | c :: rest =>
    if c = '\n' then
      if returned then linesFrom [] false rest else line.reverse :: linesFrom [] false rest
    else if c = '\r' then line.reverse :: linesFrom [] true rest
    else linesFrom (c :: line) false rest

/-- The lines of an event stream. -/
def eventLines (stream : String) : List String :=
  (linesFrom [] false stream.toList).map String.ofList

/-- A text without line breaks. -/
def IsLine (text : List Char) : Prop := ∀ c ∈ text, c ≠ '\n' ∧ c ≠ '\r'

instance (text : List Char) : Decidable (IsLine text) := List.decidableBAll _ text

theorem linesFrom_append {text : List Char} (h : IsLine text) (line rest : List Char) :
    linesFrom line false (text ++ '\n' :: rest)
      = (line.reverse ++ text) :: linesFrom [] false rest := by
  induction text generalizing line with
  | nil => rw [List.append_nil]; rfl
  | cons c tail ih =>
    obtain ⟨hfeed, hreturn⟩ := h c List.mem_cons_self
    rw [List.cons_append, linesFrom, if_neg hfeed, if_neg hreturn,
      ih fun d hd => h d (List.mem_cons_of_mem _ hd), List.reverse_cons, List.append_assoc,
      List.singleton_append]

/-! ### Texts without line breaks -/

theorem isLine_append {s t : String} (hs : IsLine s.toList) (ht : IsLine t.toList) :
    IsLine (s ++ t).toList := by
  intro c hc
  rw [String.toList_append, List.mem_append] at hc
  exact hc.elim (hs c) (ht c)

theorem isLine_intercalate {texts : List String} (h : ∀ text ∈ texts, IsLine text.toList) :
    IsLine (",".intercalate texts).toList := by
  intro c hc
  rw [String.toList_intercalate] at hc
  cases texts with
  | nil => exact absurd hc List.not_mem_nil
  | cons text rest =>
    have hparts : c ∈ text.toList ++ (rest.map String.toList).flatMap (',' :: ·) := by
      rwa [← intercalate_cons]
    rw [List.mem_append, List.flatMap_map, List.mem_flatMap] at hparts
    rcases hparts with hc | ⟨next, hnext, hc⟩
    · exact h text List.mem_cons_self c hc
    · rcases List.mem_cons.mp hc with rfl | hc
      · decide
      · exact h next (List.mem_cons_of_mem _ hnext) c hc

theorem isLine_escapeChar (c : Char) : IsLine (escapeChar c) := by
  have hdigit : ∀ n, n < 16 → Hex.digit n ≠ '\n' ∧ Hex.digit n ≠ '\r' := by
    have all : ∀ m ∈ List.range 16, Hex.digit m ≠ '\n' ∧ Hex.digit m ≠ '\r' := by decide
    exact fun n hn => all n (List.mem_range.mpr hn)
  unfold escapeChar
  split; decide
  split; decide
  split; decide
  split; decide
  split; decide
  split; decide
  split; decide
  split
  · rename_i hlow
    simp only [IsLine, List.forall_mem_cons]
    exact ⟨by decide, by decide, by decide, by decide, hdigit _ (by omega), hdigit _ (by omega),
      fun _ hd => absurd hd List.not_mem_nil⟩
  · rename_i hfeed hreturn _ _ _ _
    exact List.forall_mem_singleton.mpr ⟨hfeed, hreturn⟩

theorem isLine_quote (s : String) : IsLine (quote s).toList := by
  intro c hc
  rw [quote, String.toList_ofList, List.mem_append, List.mem_cons, List.mem_singleton,
    List.mem_flatMap] at hc
  rcases hc with (rfl | ⟨d, -, hc⟩) | rfl
  · decide
  · exact isLine_escapeChar d c hc
  · decide

theorem isLine_list {items : List String} (h : ∀ item ∈ items, IsLine item.toList) :
    IsLine (list items).toList :=
  isLine_append (isLine_append (by decide) (isLine_intercalate h)) (by decide)

theorem isLine_object {members : List (String × String)} (h : ∀ m ∈ members, IsLine m.2.toList) :
    IsLine (object members).toList := by
  refine isLine_append (isLine_append (by decide) (isLine_intercalate ?_)) (by decide)
  intro text htext
  obtain ⟨m, hm, rfl⟩ := List.mem_map.mp htext
  exact isLine_append (isLine_append (isLine_quote m.1) (by decide)) (h m hm)

/-! ### Events -/

/-- **An event is three lines**: its name, its data and a blank one. -/
theorem eventLines_event {name data : String} (hname : IsLine name.toList)
    (hdata : IsLine data.toList) :
    eventLines (event name data) = ["event: " ++ name, "data: " ++ data, ""] := by
  have hone : data.toList.splitOn '\n' = [data.toList] :=
    List.splitOn_eq_singleton fun hm => (hdata _ hm).1 rfl
  have htext : (event name data).toList = ("event: " ++ name).toList ++ '\n' ::
      (("data: " ++ data).toList ++ '\n' :: ([] ++ '\n' :: [])) := by
    simp [event, eventField, hone, String.join]
  rw [eventLines, htext, linesFrom_append (isLine_append (by decide) hname),
    linesFrom_append (isLine_append (by decide) hdata),
    linesFrom_append (by decide : IsLine [])]
  simp only [linesFrom, List.reverse_nil, List.nil_append, List.map_cons, List.map_nil,
    String.ofList_toList]

/-! ### Layers -/

/-- What a player makes of the layers of a stream. -/
def layersValue (layers : List String) : Value :=
  .object [("1", .object [("layers",
    .list (layers.map fun tag => .object [("encodingId", .text tag)]))])]

theorem isLine_layersData (layers : List String) : IsLine (layersData layers).toList := by
  refine isLine_object ?_
  rw [List.forall_mem_singleton]
  refine isLine_object ?_
  rw [List.forall_mem_singleton]
  refine isLine_list fun item hitem => ?_
  obtain ⟨tag, -, rfl⟩ := List.mem_map.mp hitem
  refine isLine_object ?_
  rw [List.forall_mem_singleton]
  exact isLine_quote tag

theorem reads_layersData (layers : List String) (depth : Nat) :
    Reads (readValue (depth + 5)) (Utf8.encode (layersData layers)) (layersValue layers) := by
  refine reads_object (.cons ⟨rfl, reads_object (.cons ⟨rfl, reads_list ?_⟩ .nil)⟩ .nil)
  rw [List.forall₂_map_left_iff, List.forall₂_map_right_iff, List.forall₂_same]
  exact fun tag _ => reads_object (.cons ⟨rfl, reads_quote tag⟩ .nil)

/-- **The data of an event decodes to the tags**, in order. -/
theorem decode_layersData (layers : List String) :
    Json.decode (Utf8.encode (layersData layers)) = .ok (layersValue layers) := by
  have hdeep : 4 ≤ (Utf8.encode (layersData layers)).length := by
    rw [layersData, encode_object]
    simp [memberBytes]
    omega
  exact decode_written 4 hdeep (reads_layersData layers)

/-- A player reads one event off a body, the data of which holds some layers in order. -/
def Conveys (body : String) (layers : List String) : Prop :=
  ∃ data, eventLines body = ["event: layers", "data: " ++ data, ""] ∧
    Json.decode (Utf8.encode data) = .ok (layersValue layers)

theorem conveys_event (layers : List String) :
    Conveys (event "layers" (layersData layers)) layers :=
  ⟨layersData layers, eventLines_event (by decide) (isLine_layersData layers),
    decode_layersData layers⟩

end Http

end Simulcast
