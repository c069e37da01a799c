import LayerGraph.CommandLine
import LayerGraph.Proofs.Json.Printer
import Mathlib.Data.List.TakeWhile

/-!
# The framing of the line service

Requests and events stand one on a line. Between the line feeds of an input stand the lines that
are answered, each by itself; no event holds a line feed, so between the line feeds of the output
stand the events.
-/

namespace LayerGraph

namespace Text

def utf8 (text : String) : List UInt8 :=
  text.toUTF8.data.toList

theorem utf8_eq_flatMap (text : String) : utf8 text = text.toList.flatMap String.utf8EncodeChar := by
  rw [utf8, String.toUTF8_eq_toByteArray, ← String.utf8Encode_toList, List.utf8Encode,
    List.toList_data_toByteArray]

theorem utf8_append (s t : String) : utf8 (s ++ t) = utf8 s ++ utf8 t := by
  rw [utf8_eq_flatMap, String.toList_append, List.flatMap_append, ← utf8_eq_flatMap,
    ← utf8_eq_flatMap]

/-- Only the line feed itself has its byte. -/
theorem lineFeed_notMem_utf8EncodeChar {c : Char} (other : c ≠ '\n') :
    10 ∉ String.utf8EncodeChar c := by
  have code : c.toNat ≠ 10 := fun same => other (Char.toNat_inj.mp same)
  simp only [String.utf8EncodeChar, Char.toNat_val]
  split_ifs <;> simp [← UInt8.toNat_inj] <;> omega

theorem Unbroken.lineFeed_notMem {text : String} (unbroken : Unbroken text.toList) :
    10 ∉ utf8 text := by
  rw [utf8_eq_flatMap, List.mem_flatMap]
  rintro ⟨c, member, inside⟩
  refine lineFeed_notMem_utf8EncodeChar ?_ inside
  rintro rfl
  exact absurd (unbroken _ member) (by decide)

theorem trim_eq_nil_iff {text : List Char} : trim text = [] ↔ ∀ c ∈ text, isBlank c = true := by
  rw [trim, List.reverse_eq_nil_iff, List.dropWhile_eq_nil_iff]
  simp only [List.mem_reverse]
  constructor
  · intro blank
    cases left : text.dropWhile isBlank with
    | nil => exact List.dropWhile_eq_nil_iff.mp left
    | cons c rest =>
      have first := List.head?_dropWhile_not isBlank text
      rw [left, List.head?_cons] at first
      exact absurd (blank c (left ▸ List.mem_cons_self ..)) (by simpa using first)
  · exact fun blank c member => blank c ((List.dropWhile_sublist _).mem member)

end Text

open Text

namespace Service

def withoutReturn (line : List UInt8) : List UInt8 :=
  if line.getLast? = some 13 then line.dropLast else line

/-- The lines of an input, given what stands between its line feeds. Behind the last line feed
there is a line only if anything stands there. -/
def ended : List (List UInt8) → List (List UInt8)
  | [] => []
  | [last] => if last = [] then [] else [last]
  | piece :: next :: rest => withoutReturn piece :: ended (next :: rest)

theorem withoutReturn_cons {byte : UInt8} {line : List UInt8} (kept : byte = 13 → line ≠ []) :
    withoutReturn (byte :: line) = byte :: withoutReturn line := by
  cases line with
  | nil => simpa [withoutReturn] using kept
  | cons next line =>
    simp only [withoutReturn, List.getLast?_cons_cons, List.dropLast_cons_cons]
    split <;> rfl

theorem ended_cons {byte : UInt8} {piece : List UInt8} {pieces : List (List UInt8)}
    (kept : byte = 13 → piece = [] → pieces = []) :
    ended ((byte :: piece) :: pieces) = prepend byte (ended (piece :: pieces)) := by
  cases pieces with
  | nil => cases piece <;> rfl
  | cons next rest =>
    rw [ended, ended, prepend, withoutReturn_cons fun isReturn empty => nomatch kept isReturn empty]

theorem ended_cons_splitOn (line input : List UInt8) :
    ended (line :: input.splitOn 10) = withoutReturn line :: ended (input.splitOn 10) := by
  cases split : input.splitOn 10 with
  | nil => exact absurd split (List.splitOn_ne_nil 10 input)
  | cons piece pieces => rfl

/-- The first piece is empty only in front of a line feed, or if it is the only one. -/
theorem eq_nil_of_splitOn {input : List UInt8} {pieces : List (List UInt8)}
    (split : input.splitOn 10 = [] :: pieces) : pieces = [] ∨ ∃ rest, input = 10 :: rest := by
  cases input with
  | nil => exact .inl (List.cons.inj split).2.symm
  | cons byte rest =>
    rw [List.splitOn_cons_eq_if_modifyHead] at split
    split_ifs at split with isFeed
    · exact .inr ⟨rest, by rw [beq_iff_eq.mp isFeed]⟩
    · cases later : rest.splitOn 10 with
      | nil => exact absurd later (List.splitOn_ne_nil 10 rest)
      | cons piece others => simp [later] at split

theorem lines_eq (input : List UInt8) : lines input = ended (input.splitOn 10) := by
  induction input using lines.induct with
  | case1 => rfl
  | case2 rest ih =>
    have noFeed : (10 : UInt8) ∉ [13] := by decide
    have split : (13 :: 10 :: rest).splitOn 10 = [13] :: rest.splitOn 10 :=
      List.splitOn_append_cons_self_of_not_mem noFeed rest
    rw [lines, split, ended_cons_splitOn, ih]
    rfl
  | case3 rest ih =>
    have split : (10 :: rest).splitOn 10 = [] :: rest.splitOn 10 :=
      List.splitOn_append_cons_self_of_not_mem (List.not_mem_nil) rest
    rw [lines, split, ended_cons_splitOn, ih]
    rfl
  | case4 byte rest notReturn notFeed ih =>
    obtain ⟨piece, pieces, split⟩ := List.exists_cons_of_ne_nil (List.splitOn_ne_nil 10 rest)
    have kept : byte = 13 → piece = [] → pieces = [] := by
      rintro rfl rfl
      refine (eq_nil_of_splitOn split).resolve_right ?_
      rintro ⟨others, rfl⟩
      exact notReturn others rfl rfl
    rw [lines, List.splitOn_cons_eq_if_modifyHead, if_neg (by simpa using notFeed), ih, split,
      List.modifyHead_cons, ended_cons kept]
    all_goals assumption

example : lines [97, 13, 10, 10, 98, 13] = [[97], [], [98, 13]] := by
  decide

theorem decodeLine_utf8 (text : String) : decodeLine (utf8 text) = some text.toList := by
  have valid : String.fromUTF8? text.toUTF8 = some text := dif_pos text.isValidUTF8
  rw [decodeLine, utf8, Array.toArray_toList, valid, Option.map_some]

theorem decodeLine_eq_none_iff {line : List UInt8} :
    decodeLine line = none ↔ ∀ text, line ≠ utf8 text := by
  constructor
  · rintro undecodable text rfl
    rw [decodeLine_utf8] at undecodable
    cases undecodable
  · intro different
    rw [decodeLine, Option.map_eq_none_iff]
    exact dif_neg fun valid => different (String.fromUTF8 _ valid) rfl

/-- These texts are the lines in front of the first one that is not UTF-8. -/
structure Readable (lines : List (List UInt8)) (texts : List String)
    (rest : List (List UInt8)) : Prop where
  lines_eq : lines = texts.map utf8 ++ rest
  stops : ∀ line ∈ rest.head?, ∀ text, line ≠ utf8 text

theorem exists_readable (lines : List (List UInt8)) : ∃ texts rest, Readable lines texts rest := by
  induction lines with
  | nil => exact ⟨[], [], rfl, nofun⟩
  | cons line lines ih =>
    by_cases valid : ∃ text, line = utf8 text
    · obtain ⟨text, rfl⟩ := valid
      obtain ⟨texts, rest, rfl, stops⟩ := ih
      exact ⟨text :: texts, rest, rfl, stops⟩
    · refine ⟨[], line :: lines, rfl, ?_⟩
      rintro _ ⟨⟩ text same
      exact valid ⟨text, same⟩

theorem Readable.forall_utf8_iff {lines : List (List UInt8)} {texts : List String}
    {rest : List (List UInt8)} (readable : Readable lines texts rest) :
    (∀ line ∈ lines, ∃ text, line = utf8 text) ↔ rest = [] := by
  obtain ⟨rfl, stops⟩ := readable
  constructor
  · intro each
    cases rest with
    | nil => rfl
    | cons line rest =>
      obtain ⟨text, same⟩ := each line (by simp)
      exact absurd same (stops line rfl text)
  · rintro rfl line member
    obtain ⟨text, -, rfl⟩ := List.mem_map.mp (List.append_nil _ ▸ member)
    exact ⟨text, rfl⟩

def Answered (text : String) : Prop :=
  ∃ c ∈ text.toList, Text.isBlank c = false

instance : DecidablePred Answered :=
  fun text => List.decidableBEx (fun c => Text.isBlank c = false) text.toList

theorem answerLines_utf8 (text : String) (rest : List (List UInt8)) :
    answerLines (utf8 text :: rest) =
      if Answered text then
        { answerLines rest with
          events := answerLine text.toList :: (answerLines rest).events }
      else answerLines rest := by
  have blank : (Text.trim text.toList).isEmpty = true ↔ ¬ Answered text := by
    simp [trim_eq_nil_iff, Answered]
  simp only [answerLines, decodeLine_utf8, blank, ite_not]

/-- Every text that is more than blanks is answered, without regard to the others. -/
theorem answerLines_eq {lines : List (List UInt8)} {texts : List String}
    {rest : List (List UInt8)} (readable : Readable lines texts rest) :
    answerLines lines =
      ⟨(texts.filter Answered).map fun text => answerLine text.toList, rest.isEmpty⟩ := by
  obtain ⟨rfl, stops⟩ := readable
  induction texts with
  | nil =>
    cases rest with
    | nil => rfl
    | cons line rest =>
      have undecodable := decodeLine_eq_none_iff.mpr (stops line rfl)
      simp [answerLines, undecodable]
  | cons text texts ih =>
    rw [List.map_cons, List.cons_append, answerLines_utf8, ih, List.filter_cons]
    by_cases answered : Answered text <;> simp [answered]

theorem unbroken_text (event : Event) : Unbroken event.text.toList := by
  rw [Event.text, Json.Value.text, String.toList_ofList]
  exact event.toJson.unbroken_chars

/-- Between the line feeds of the output stand the events, and nothing stands behind the last. -/
theorem splitOn_events (events : List Event) :
    (utf8 (String.join (events.map fun event => event.text ++ "\n"))).splitOn 10 =
      (events.map fun event => utf8 event.text) ++ [[]] := by
  induction events with
  | nil => rfl
  | cons event events ih =>
    rw [List.map_cons, String.join_cons, utf8_append, utf8_append, List.append_assoc]
    change (utf8 event.text ++ 10 :: utf8 _).splitOn 10 = _
    rw [List.splitOn_append_cons_self_of_not_mem (unbroken_text event).lineFeed_notMem, ih]
    rfl

theorem stdout_serve (input : List UInt8) : (Outcome.serve input).stdout =
    String.join ((serve input).events.map fun event => event.text ++ "\n") := by
  rw [Outcome.serve]
  split <;> rfl

theorem code_serve (input : List UInt8) :
    (Outcome.serve input).code = 0 ↔ (serve input).complete = true := by
  cases complete : (serve input).complete <;> simp [Outcome.serve, complete, Outcome.failed]

/-- How the service frames its answers. `texts` are the lines of the input in front of the first
one that is not UTF-8, and `rest` are the lines from there on. -/
structure Framed (input : List UInt8) (texts : List String) (rest : List (List UInt8)) : Prop where
  readable : Readable (ended (input.splitOn 10)) texts rest
  events : (serve input).events =
    .ready :: (texts.filter Answered).map fun text => answerLine text.toList
  complete : (serve input).complete = true ↔
    ∀ line ∈ ended (input.splitOn 10), ∃ text, line = utf8 text
  code : (Outcome.serve input).code = 0 ↔
    ∀ line ∈ ended (input.splitOn 10), ∃ text, line = utf8 text
  stdout : (Outcome.serve input).stdout =
    String.join ((serve input).events.map fun event => event.text ++ "\n")
  recovered : (utf8 (Outcome.serve input).stdout).splitOn 10 =
    ((serve input).events.map fun event => utf8 event.text) ++ [[]]

theorem serve_eq {input : List UInt8} {texts : List String} {rest : List (List UInt8)}
    (readable : Readable (ended (input.splitOn 10)) texts rest) :
    serve input =
      ⟨.ready :: (texts.filter Answered).map fun text => answerLine text.toList, rest.isEmpty⟩ := by
  rw [serve, lines_eq, answerLines_eq readable]

end Service

end LayerGraph
