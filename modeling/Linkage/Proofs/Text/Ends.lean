import Linkage.Text.Blank

namespace Linkage.Text

variable {p : Char → Bool} {f : Char → Char} {cs ds before behind : List Char} {c : Char}

def StartsIn (p : Char → Bool) (cs : List Char) : Prop :=
  ∃ c ∈ cs.head?, p c = true

def EndsIn (p : Char → Bool) (cs : List Char) : Prop :=
  ∃ c ∈ cs.getLast?, p c = true

theorem startsIn_cons : StartsIn p (c :: cs) ↔ p c = true := by
  simp [StartsIn]

theorem endsIn_concat : EndsIn p (cs ++ [c]) ↔ p c = true := by
  simp [EndsIn]

theorem endsIn_iff_reverse : EndsIn p cs ↔ StartsIn p cs.reverse := by
  rw [EndsIn, StartsIn, List.head?_reverse]

theorem EndsIn.exists_concat (h : EndsIn p cs) : ∃ front c, cs = front ++ [c] ∧ p c = true := by
  obtain ⟨c, hc, hp⟩ := h
  obtain ⟨front, rfl⟩ := List.getLast?_eq_some_iff.mp hc
  exact ⟨front, c, rfl, hp⟩

theorem startsIn_map (hf : ∀ c, p (f c) = p c) :
    StartsIn p (cs.map f) ↔ StartsIn p cs := by
  cases cs with
  | nil => rfl
  | cons c cs => rw [List.map_cons, startsIn_cons, startsIn_cons, hf]

theorem endsIn_map (hf : ∀ c, p (f c) = p c) :
    EndsIn p (cs.map f) ↔ EndsIn p cs := by
  rw [endsIn_iff_reverse, endsIn_iff_reverse, ← List.map_reverse, startsIn_map hf]

theorem StartsIn.of_isPrefix (h : StartsIn p ds) (hp : ds <+: cs) : StartsIn p cs := by
  obtain ⟨rest, rfl⟩ := hp
  cases ds with
  | nil => obtain ⟨c, hc, -⟩ := h; cases hc
  | cons d ds => exact startsIn_cons.mpr (startsIn_cons.mp h)

theorem not_startsIn_dropWhile (p : Char → Bool) (cs : List Char) :
    ¬ StartsIn p (cs.dropWhile p) := by
  induction cs with
  | nil => rintro ⟨c, hc, -⟩; cases hc
  | cons c cs ih =>
    cases hp : p c with
    | true => rwa [List.dropWhile_cons_of_pos hp]
    | false =>
      rw [List.dropWhile_cons_of_neg (by simp [hp]), startsIn_cons, hp]
      exact Bool.false_ne_true

theorem dropWhile_of_not_startsIn (h : ¬ StartsIn p cs) : cs.dropWhile p = cs := by
  cases cs with
  | nil => rfl
  | cons c cs => exact List.dropWhile_cons_of_neg fun hp => h (startsIn_cons.mpr hp)

theorem exists_append_dropWhile (p : Char → Bool) (cs : List Char) :
    ∃ ds, cs = ds ++ cs.dropWhile p ∧ ∀ c ∈ ds, p c = true :=
  ⟨cs.takeWhile p, List.takeWhile_append_dropWhile.symm, List.all_eq_true.mp List.all_takeWhile⟩

theorem not_endsIn_dropEndWhile (p : Char → Bool) (cs : List Char) :
    ¬ EndsIn p (dropEndWhile p cs) := by
  rw [endsIn_iff_reverse, dropEndWhile, List.reverse_reverse]
  exact not_startsIn_dropWhile p cs.reverse

theorem dropEndWhile_of_not_endsIn (h : ¬ EndsIn p cs) : dropEndWhile p cs = cs := by
  rw [endsIn_iff_reverse] at h
  rw [dropEndWhile, dropWhile_of_not_startsIn h, List.reverse_reverse]

theorem exists_dropEndWhile_append (p : Char → Bool) (cs : List Char) :
    ∃ ds, cs = dropEndWhile p cs ++ ds ∧ ∀ c ∈ ds, p c = true := by
  obtain ⟨ds, hds, hp⟩ := exists_append_dropWhile p cs.reverse
  refine ⟨ds.reverse, ?_, fun c hc => hp c (List.mem_reverse.mp hc)⟩
  rw [dropEndWhile, ← List.reverse_append, ← hds, List.reverse_reverse]

theorem dropEndWhile_isPrefix (p : Char → Bool) (cs : List Char) : dropEndWhile p cs <+: cs := by
  obtain ⟨ds, hds, -⟩ := exists_dropEndWhile_append p cs
  exact ⟨ds, hds.symm⟩

theorem length_dropEndWhile_lt (h : EndsIn p cs) : (dropEndWhile p cs).length < cs.length := by
  have hpre := dropEndWhile_isPrefix p cs
  refine Nat.lt_of_le_of_ne hpre.length_le fun hlen => not_endsIn_dropEndWhile p cs ?_
  rwa [hpre.eq_of_length hlen]

theorem strip_of_bare (hs : ¬ StartsIn isBlank cs) (he : ¬ EndsIn isBlank cs) : strip cs = cs := by
  rw [strip, dropWhile_of_not_startsIn hs, dropEndWhile_of_not_endsIn he]

theorem not_startsIn_strip (cs : List Char) : ¬ StartsIn isBlank (strip cs) := fun h =>
  not_startsIn_dropWhile isBlank cs (h.of_isPrefix (dropEndWhile_isPrefix _ _))

theorem not_endsIn_strip (cs : List Char) : ¬ EndsIn isBlank (strip cs) :=
  not_endsIn_dropEndWhile _ _

theorem dropWhile_map (hf : ∀ c, p (f c) = p c) (cs : List Char) :
    (cs.map f).dropWhile p = (cs.dropWhile p).map f := by
  have hp : p ∘ f = p := funext hf
  rw [List.dropWhile_map, hp]

theorem dropEndWhile_map (hf : ∀ c, p (f c) = p c) (cs : List Char) :
    dropEndWhile p (cs.map f) = (dropEndWhile p cs).map f := by
  rw [dropEndWhile, ← List.map_reverse, dropWhile_map hf, ← List.map_reverse, dropEndWhile]

theorem strip_map (hf : ∀ c, isBlank (f c) = isBlank c) (cs : List Char) :
    strip (cs.map f) = (strip cs).map f := by
  rw [strip, dropWhile_map hf, dropEndWhile_map hf, strip]

theorem strip_append_append (hb : ∀ c ∈ before, isBlank c = true)
    (he : ∀ c ∈ behind, isBlank c = true) : strip (before ++ cs ++ behind) = strip cs := by
  rw [strip, List.append_assoc, List.dropWhile_append_of_pos hb, List.dropWhile_append]
  by_cases hcs : (cs.dropWhile isBlank).isEmpty = true
  · have hbehind : (behind ++ []).dropWhile isBlank = [] := List.dropWhile_append_of_pos he
    rw [List.append_nil] at hbehind
    rw [if_pos hcs, hbehind, strip, List.isEmpty_iff.mp hcs]
  · rw [if_neg hcs, dropEndWhile_append isBlank _ _ he, strip]

end Linkage.Text
