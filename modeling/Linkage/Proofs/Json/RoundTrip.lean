import Linkage.Json.Parse
import Linkage.Proofs.Document.Record
import Linkage.Proofs.Json.Scalar

namespace Linkage.Json

open Document

mutual

def pieces : Json → List Token
  | .null => [.scalar .null]
  | .boolean b => [.scalar (.boolean b)]
  | .number n => [.scalar (.integer n)]
  | .string s => [.string (some s)]
  | .array items => .openArray :: itemPieces items ++ [.closeArray]
  | .object fields => .openObject :: fieldPieces fields ++ [.closeObject]
termination_by structural j => j

def itemPieces : List Json → List Token
  | [] => []
  | j :: js => pieces j ++ (if js.isEmpty then [] else .comma :: itemPieces js)
termination_by structural js => js

def fieldPieces : List (String × Json) → List Token
  | [] => []
  | (k, j) :: fs =>
    .string (some k) :: .colon :: pieces j ++ (if fs.isEmpty then [] else .comma :: fieldPieces fs)
termination_by structural fs => fs

end

mutual

def InWords : Json → Prop
  | .number n => n ≤ maxWord
  | .array items => ItemsInWords items
  | .object fields => FieldsInWords fields
  | .null | .boolean _ | .string _ => True
termination_by structural j => j

def ItemsInWords : List Json → Prop
  | [] => True
  | j :: js => InWords j ∧ ItemsInWords js
termination_by structural js => js

def FieldsInWords : List (String × Json) → Prop
  | [] => True
  | (_, j) :: fs => InWords j ∧ FieldsInWords fs
termination_by structural fs => fs

end

mutual

def depth : Json → Nat
  | .array items => itemDepth items + 1
  | .object fields => fieldDepth fields + 1
  | .null | .boolean _ | .number _ | .string _ => 0
termination_by structural j => j

def itemDepth : List Json → Nat
  | [] => 0
  | j :: js => max (depth j) (itemDepth js)
termination_by structural js => js

def fieldDepth : List (String × Json) → Nat
  | [] => 0
  | (_, j) :: fs => max (depth j) (fieldDepth fs)
termination_by structural fs => fs

end

theorem tokens_of_next {c : Char} {cs rest : List Char} {t : Token} (hb : isBlank c = false)
    (h : Token.next (c :: cs) = (t, rest)) : tokens (c :: cs) = t :: tokens rest := by
  rw [tokens]
  split
  · next heq => simp [hb] at heq
  · next heq =>
    rw [List.dropWhile_cons_of_neg (by simp [hb])] at heq
    cases heq
    simp only [h]

theorem tokens_openArray (cs : List Char) : tokens ('[' :: cs) = .openArray :: tokens cs :=
  tokens_of_next (by decide) rfl

theorem tokens_closeArray (cs : List Char) : tokens (']' :: cs) = .closeArray :: tokens cs :=
  tokens_of_next (by decide) rfl

theorem tokens_openObject (cs : List Char) : tokens ('\x7b' :: cs) = .openObject :: tokens cs :=
  tokens_of_next (by decide) rfl

theorem tokens_closeObject (cs : List Char) :
    tokens ('\x7d' :: cs) = .closeObject :: tokens cs :=
  tokens_of_next (by decide) rfl

theorem tokens_comma (cs : List Char) : tokens (',' :: cs) = .comma :: tokens cs :=
  tokens_of_next (by decide) rfl

theorem tokens_colon (cs : List Char) : tokens (':' :: cs) = .colon :: tokens cs :=
  tokens_of_next (by decide) rfl

theorem tokens_string (s : String) (rest : List Char) :
    tokens (stringChars s ++ rest) = .string (some s) :: tokens rest :=
  tokens_of_next (by decide) (next_stringChars s rest)

theorem tokens_number {n : Nat} (h : n ≤ maxWord) {rest : List Char} (hr : EndsNumber rest) :
    tokens ((toString n).toList ++ rest) = .scalar (.integer n) :: tokens rest := by
  have hn := next_number h hr
  rw [Nat.toString_eq_ofList_toDigits, String.toList_ofList] at hn ⊢
  cases hd : Nat.toDigits 10 n with
  | nil => exact absurd hd Nat.toDigits_ne_nil
  | cons c cs =>
    have hc : c.isDigit = true :=
      Nat.isDigit_of_mem_toDigits (by decide) (by decide) (hd ▸ List.mem_cons_self)
    rw [hd] at hn
    refine tokens_of_next ?_ hn
    have : c ∉ [' ', '\n', '\t', '\r'] := by
      intro hm
      simp only [List.mem_cons, List.not_mem_nil, or_false] at hm
      rcases hm with rfl | rfl | rfl | rfl <;> cases hc
    simpa [isBlank, and_assoc] using this

theorem tokens_null (rest : List Char) :
    tokens ("null".toList ++ rest) = .scalar .null :: tokens rest := by
  have hword : "null".toList = ['n', 'u', 'l', 'l'] := by decide
  rw [hword]
  exact tokens_of_next (by decide) rfl

theorem tokens_boolean (b : Bool) (rest : List Char) :
    tokens ((if b then "true" else "false").toList ++ rest) =
      .scalar (.boolean b) :: tokens rest := by
  have htrue : "true".toList = ['t', 'r', 'u', 'e'] := by decide
  have hfalse : "false".toList = ['f', 'a', 'l', 's', 'e'] := by decide
  cases b with
  | true =>
    rw [if_pos rfl, htrue]
    exact tokens_of_next (by decide) rfl
  | false =>
    rw [if_neg (by decide), hfalse]
    exact tokens_of_next (by decide) rfl

mutual

theorem tokens_chars : ∀ (j : Json) {rest : List Char}, j.InWords → EndsNumber rest →
    tokens (j.chars ++ rest) = j.pieces ++ tokens rest
  | .null, rest, _, _ => tokens_null rest
  | .boolean b, rest, _, _ => tokens_boolean b rest
  | .number _, _, h, hr => tokens_number h hr
  | .string s, rest, _, _ => tokens_string s rest
  | .array items, rest, h, _ => by
    simp only [chars, pieces, List.cons_append, List.append_assoc, List.nil_append]
    rw [tokens_openArray, tokens_itemChars items h (endsNumber_cons _ (by decide)),
      tokens_closeArray]
  | .object fields, rest, h, _ => by
    simp only [chars, pieces, List.cons_append, List.append_assoc, List.nil_append]
    rw [tokens_openObject, tokens_fieldChars fields h (endsNumber_cons _ (by decide)),
      tokens_closeObject]
termination_by structural j => j

theorem tokens_itemChars : ∀ (js : List Json) {rest : List Char}, ItemsInWords js →
    EndsNumber rest → tokens (itemChars js ++ rest) = itemPieces js ++ tokens rest
  | [], _, _, _ => rfl
  | j :: js, rest, h, hr => by
    have ih := tokens_itemChars js h.2 hr
    rw [itemChars, itemPieces]
    cases js with
    | nil =>
      simp only [List.isEmpty_nil, ↓reduceIte, List.append_nil]
      exact tokens_chars j h.1 hr
    | cons k js =>
      simp only [List.isEmpty_cons, Bool.false_eq_true, ↓reduceIte, List.append_assoc,
        List.cons_append]
      rw [tokens_chars j h.1 (endsNumber_cons _ (by decide)), tokens_comma, ih]
termination_by structural js => js

theorem tokens_fieldChars : ∀ (fs : List (String × Json)) {rest : List Char}, FieldsInWords fs →
    EndsNumber rest → tokens (fieldChars fs ++ rest) = fieldPieces fs ++ tokens rest
  | [], _, _, _ => rfl
  | (k, j) :: fs, rest, h, hr => by
    have ih := tokens_fieldChars fs h.2 hr
    rw [fieldChars, fieldPieces]
    cases fs with
    | nil =>
      simp only [List.isEmpty_nil, ↓reduceIte, List.append_nil, List.append_assoc,
        List.cons_append]
      rw [tokens_string, tokens_colon, tokens_chars j h.1 hr]
    | cons f fs =>
      simp only [List.isEmpty_cons, Bool.false_eq_true, ↓reduceIte, List.append_assoc,
        List.cons_append]
      rw [tokens_string, tokens_colon, tokens_chars j h.1 (endsNumber_cons _ (by decide)),
        tokens_comma, ih]
termination_by structural fs => fs

end

variable {stack : List Open} {ts : List Token}

theorem finish_array (items : List Node) (h : stack.length < maxDepth) :
    finish (.array items.reverse) stack = put (.sequence items none) stack := by
  rw [finish, if_pos h, Open.finish, List.reverse_reverse]

theorem finish_object (fields : List (String × Node)) (h : stack.length < maxDepth) :
    finish (.object fields.reverse none true) stack = put (.table fields none) stack := by
  rw [finish, if_pos h, Open.finish, if_pos rfl, List.reverse_reverse]

theorem run_firstItem (j : Json) (stack : List Open) (ts : List Token) :
    run (.going stack .firstItem) (j.pieces ++ ts) = run (.going stack .value) (j.pieces ++ ts) := by
  cases j <;> rfl

mutual

/-- A value is put where it is asked for. -/
theorem run_pieces : ∀ (j : Json) (stack : List Open) (ts : List Token),
    stack.length + j.depth ≤ maxDepth →
      run (.going stack .value) (j.pieces ++ ts) = run (put j.node stack) ts
  | .null, _, _, _ | .boolean _, _, _, _ | .number _, _, _, _ | .string _, _, _, _ => rfl
  | .array [], stack, ts, h => by
    rw [depth] at h
    exact congrArg (run · ts) (finish_array [] (by omega))
  | .array (j :: js), stack, ts, h => by
    rw [depth, itemDepth] at h
    have hfirst := run_pieces j (.array [] :: stack)
      ((if js.isEmpty then [] else .comma :: itemPieces js) ++ .closeArray :: ts)
      (by rw [List.length_cons]; omega)
    have hmore := run_moreItems js [j.node] stack (.closeArray :: ts) (by omega)
    rw [← List.reverse_cons] at hmore
    simp only [pieces, itemPieces, List.cons_append, List.append_assoc, List.nil_append]
    refine (run_firstItem j _ _).trans (hfirst.trans (hmore.trans ?_))
    exact congrArg (run · ts) (finish_array _ (by omega))
  | .object [], stack, ts, h => by
    rw [depth] at h
    exact congrArg (run · ts) (finish_object [] (by omega))
  | .object ((k, j) :: fs), stack, ts, h => by
    rw [depth, fieldDepth] at h
    have hfirst := run_pieces j (.object [] (some k) true :: stack)
      ((if fs.isEmpty then [] else .comma :: fieldPieces fs) ++ .closeObject :: ts)
      (by rw [List.length_cons]; omega)
    have hmore := run_moreFields fs [(k, j.node)] stack (.closeObject :: ts) (by omega)
    rw [← List.reverse_cons] at hmore
    simp only [pieces, fieldPieces, List.cons_append, List.append_assoc, List.nil_append]
    refine hfirst.trans (hmore.trans ?_)
    exact congrArg (run · ts) (finish_object _ (by omega))
termination_by structural j => j

theorem run_moreItems : ∀ (js : List Json) (done : List Node) (stack : List Open)
    (ts : List Token), stack.length + itemDepth js < maxDepth →
      run (.going (.array done :: stack) .separator)
          ((if js.isEmpty then [] else .comma :: itemPieces js) ++ ts) =
        run (.going (.array ((itemNodes js).reverse ++ done) :: stack) .separator) ts
  | [], _, _, _, _ => rfl
  | j :: js, done, stack, ts, h => by
    rw [itemDepth] at h
    have hj := run_pieces j (.array done :: stack)
      ((if js.isEmpty then [] else .comma :: itemPieces js) ++ ts) (by rw [List.length_cons]; omega)
    have ih := run_moreItems js (j.node :: done) stack ts (by omega)
    rw [itemNodes, List.reverse_cons, List.append_assoc, List.singleton_append, ← ih]
    rw [if_neg (by simp), itemPieces, List.cons_append, List.append_assoc]
    exact hj
termination_by structural js => js

theorem run_moreFields : ∀ (fs : List (String × Json)) (done : List (String × Node)) (stack : List Open)
    (ts : List Token), stack.length + fieldDepth fs < maxDepth →
      run (.going (.object done none true :: stack) .separator)
          ((if fs.isEmpty then [] else .comma :: fieldPieces fs) ++ ts) =
        run (.going (.object ((fieldNodes fs).reverse ++ done) none true :: stack) .separator) ts
  | [], _, _, _, _ => rfl
  | (k, j) :: fs, done, stack, ts, h => by
    rw [fieldDepth] at h
    have hj := run_pieces j (.object done (some k) true :: stack)
      ((if fs.isEmpty then [] else .comma :: fieldPieces fs) ++ ts)
      (by rw [List.length_cons]; omega)
    have ih := run_moreFields fs ((k, j.node) :: done) stack ts (by omega)
    rw [fieldNodes, List.reverse_cons, List.append_assoc, List.singleton_append, ← ih]
    rw [if_neg (by simp), fieldPieces]
    simp only [List.cons_append, List.append_assoc]
    exact hj
termination_by structural fs => fs

end

theorem parse_render {j : Json} (hw : j.InWords) (hd : j.depth ≤ maxDepth) :
    parse j.render = { root := j.node } := by
  have ht := tokens_chars j hw endsNumber_nil
  have hr := run_pieces j [] [] (by simpa using hd)
  have hnil : tokens [] = [] := by rw [tokens]; rfl
  rw [List.append_nil, hnil] at ht
  rw [parse, render, String.toList_ofList, ht, hr]
  rfl

theorem itemNodes_eq_map (js : List Json) : itemNodes js = js.map node := by
  induction js with
  | nil => rfl
  | cons j js ih => rw [itemNodes, ih, List.map_cons]

theorem itemsInWords_iff {js : List Json} : ItemsInWords js ↔ ∀ j ∈ js, j.InWords := by
  induction js with
  | nil => simp [ItemsInWords]
  | cons j js ih => simp [ItemsInWords, ih]

theorem itemDepth_le_iff {js : List Json} {n : Nat} : itemDepth js ≤ n ↔ ∀ j ∈ js, j.depth ≤ n := by
  induction js with
  | nil => simp [itemDepth]
  | cons j js ih => rw [itemDepth, Nat.max_le, ih, List.forall_mem_cons]

theorem fieldsOf_object {r : RecordRule} {fields : List (String × Json)}
    (h : r.Accepts (fieldNodes fields)) (hn : ((fieldNodes fields).map Prod.fst).Nodup)
    (source : Source) : r.fieldsOf source (Json.object fields).node = .ok (fieldNodes fields) :=
  RecordRule.fieldsOf_table h hn source

/-- What is written as a table of fields is read where each field is read back. -/
theorem read_parse_render {α : Type} {j : Json} {read : Node → Reading α} {x : α}
    (hw : j.InWords) (hd : j.depth ≤ maxDepth) (h : read j.node = .ok x) :
    (parse j.render).read read = .ok x := by
  rw [parse_render hw hd, Parsed.read, h]
  rfl

theorem readStrings_node (ss : List String) : readStrings (strings ss).node = .ok ss := by
  rw [strings, node, itemNodes_eq_map, List.map_map, readStrings, readList_map]
  exact fun _ _ => rfl

theorem depth_strings_le (ss : List String) : (strings ss).depth ≤ 1 := by
  rw [strings, depth, Nat.add_le_add_iff_right, itemDepth_le_iff]
  simp [depth]

theorem inWords_strings (ss : List String) : (strings ss).InWords := by
  rw [strings, InWords, itemsInWords_iff]
  simp [InWords]

end Linkage.Json
