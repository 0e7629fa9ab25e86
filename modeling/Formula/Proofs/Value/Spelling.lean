/-
Integers and their decimal texts, with the lenient coercion. A decimal text has no
white space in it, so trimming takes off all that is around it and nothing else, and
what is left is read as an integer; nothing is ever read as a float here.

Main statement: a decimal text, with white space around it, becomes the integer it was
made of, and an integer equals a decimal text, on either side of it, if and only if it
equals the integer the text was made of (`integer_spelled`). On one side the text is
read, and on the other the integer is written, so the one rests on reading back and the
other on no two integers having one text.
-/
import Formula.Proofs.Number.Decimal
import Formula.Proofs.Value.Comparisons

namespace Formula.Coercion

open Value

-- =============================================================== reading

theorem isBlank_of_isDigit {c : Char} (h : isDigit c = true) : isBlank c = false := by
  unfold isDigit at h
  rw [Bool.and_eq_true, decide_eq_true_eq, decide_eq_true_eq] at h
  have hfirst : 48 ≤ c.toNat := h.1
  have hlast : c.toNat ≤ 57 := h.2
  unfold isBlank
  simp
  omega

theorem isBlank_of_mem_integerText {n : Int} {c : Char} (h : c ∈ integerText n) :
    isBlank c = false := by
  rcases eq_minus_or_isDigit_of_mem_integerText h with rfl | hdigit
  · decide
  · exact isBlank_of_isDigit hdigit

variable {m n : Int64}

theorem text_integer (n : Int64) : (Value.integer n).text = String.ofList (integerText n.toInt) := by
  rw [Value.text]

/-- A decimal text spells its integer, with any white space around it. -/
theorem integerOf?_spelled (n : Int64) {s t : String} (hs : isBlankText s = true)
    (ht : isBlankText t = true) : integerOf? (s ++ (Value.integer n).text ++ t) = some n := by
  have htrim : trimBlanks (s ++ (Value.integer n).text ++ t).toList = integerText n.toInt := by
    rw [text_integer, String.toList_append, String.toList_append, String.toList_ofList]
    exact trimBlanks_append (List.all_eq_true.1 hs) (integerText_ne_nil _)
      (fun c => isBlank_of_mem_integerText) (List.all_eq_true.1 ht)
  unfold integerOf?
  dsimp only
  rw [htrim, integer?_integerText, Checked.fit_toInt, Option.some_or]

theorem convert_spelled (n : Int64) {s t : String} (hs : isBlankText s = true)
    (ht : isBlankText t = true) :
    convertLenient (.string (s ++ (Value.integer n).text ++ t)) .integer = .ok (.integer n) := by
  have hread (r : String) :
      convertLenient? (.string r) .integer = (integerOf? r).map .integer := rfl
  unfold convertLenient
  rw [if_neg nofun, hread, integerOf?_spelled n hs ht]
  rfl

theorem convert_text (n : Int64) :
    convertLenient (.string (Value.integer n).text) .integer = .ok (.integer n) := by
  have hspelled := convert_spelled n (s := "") (t := "") rfl rfl
  rwa [String.empty_append, String.append_empty] at hspelled

/-- No two integers have one text. -/
theorem text_integer_inj : (Value.integer m).text = (Value.integer n).text ↔ m = n := by
  refine ⟨fun h => ?_, fun h => by rw [h]⟩
  have hread := convert_text m
  rw [h, convert_text n] at hread
  cases hread
  rfl

-- ============================================================== equality

/-- The text is read. -/
theorem equals_spelled (n m : Int64) :
    lenient.equals (.integer n) (.string (Value.integer m).text) = .ok (decide (n = m)) := by
  have hmeet : lenient.meet (.integer n) (.string (Value.integer m).text)
      = .ok (.integer n, .integer m) := by
    unfold lenient
    dsimp only [Value.kind]
    rw [convert_text m]
  have hequals := equals_of_meet (k := lenient) (a := .integer n)
    (b := .string (Value.integer m).text) nofun nofun (by simp [isNumber])
  rw [hequals, hmeet]
  show Except.ok (Value.same _ _) = _
  rw [Value.same]
  rfl

/-- The integer is written. -/
theorem spelled_equals (n m : Int64) :
    lenient.equals (.string (Value.integer m).text) (.integer n) = .ok (decide (n = m)) := by
  have hmeet : lenient.meet (.string (Value.integer m).text) (.integer n)
      = .ok (.string (Value.integer m).text, .string (Value.integer n).text) := rfl
  have hequals := equals_of_meet (k := lenient) (a := .string (Value.integer m).text)
    (b := .integer n) nofun nofun (by simp [isNumber])
  rw [hequals, hmeet]
  show Except.ok (Value.same _ _) = _
  rw [Value.same, Bool.beq_eq_decide_eq]
  exact congrArg Except.ok (decide_eq_decide.2 (text_integer_inj.trans eq_comm))

-- =========================================================== main result

/-- A decimal text is read as the integer it is the text of, with white space around it
or without, and an integer equals the decimal text of another one, on either side, if
and only if the two are the same. -/
theorem integer_spelled (n m : Int64) {s t : String} (hs : isBlankText s = true)
    (ht : isBlankText t = true) :
    lenient.operations.convert (.string (s ++ (Value.integer n).text ++ t)) .integer
        = .ok (.integer n)
      ∧ lenient.operations.convert (.integer n) .string = .ok (.string (Value.integer n).text)
      ∧ lenient.operations.convert (.string (Value.integer n).text) .integer = .ok (.integer n)
      ∧ lenient.operations.binary .equal (.integer n) (.string (Value.integer m).text)
        = .ok (.boolean (decide (n = m)))
      ∧ lenient.operations.binary .equal (.string (Value.integer m).text) (.integer n)
        = .ok (.boolean (decide (n = m))) := by
  have hconvert : lenient.operations.convert = convertLenient := rfl
  have hequal : lenient.operations.binary .equal = lenient.equal := rfl
  have hwritten : convertLenient (.integer n) .string = .ok (.string (Value.integer n).text) := rfl
  rw [hconvert, hequal]
  refine ⟨convert_spelled n hs ht, hwritten, convert_text n, ?_, ?_⟩
  · exact equal_of_equals (equals_spelled n m)
  · exact equal_of_equals (spelled_equals n m)

/-- The least integer, between an ideographic space and a line feed, and against the
text of another one. -/
theorem integer_spelled_least :
    isBlankText "\u3000" = true ∧ isBlankText "\n" = true
      ∧ lenient.operations.convert (.string "\u3000-9223372036854775808\n") .integer
        = .ok (.integer (-9223372036854775808))
      ∧ lenient.operations.binary .equal (.integer (-9223372036854775808)) (.string "-1")
        = .ok (.boolean false)
      ∧ lenient.operations.binary .equal (.string "-1") (.integer (-9223372036854775808))
        = .ok (.boolean false) := by
  have htext : "\u3000" ++ (Value.integer (-9223372036854775808)).text ++ "\n"
      = "\u3000-9223372036854775808\n" := by decide
  have hother : (Value.integer (-1)).text = "-1" := by decide
  have hfront : isBlankText "\u3000" = true := by decide
  have hback : isBlankText "\n" = true := by decide
  have hspelled := integer_spelled (-9223372036854775808) (-1) hfront hback
  rw [htext, hother] at hspelled
  obtain ⟨hconvert, -, -, hread, hwritten⟩ := hspelled
  exact ⟨hfront, hback, hconvert, hread, hwritten⟩

end Formula.Coercion
