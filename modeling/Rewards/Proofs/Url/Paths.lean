import Mathlib.Data.List.DropRight
import Rewards.Proofs.Text.Encoding
import Rewards.Proofs.Text.Splitting
import Rewards.Url.Basic

/-!
# Paths that go on

The segments of a path are resolved from the left, and those that are followed by others are
resolved in the same way whatever follows, `resolve_append`. So all addresses under another one have
a path in common, `pathUnder`. A path that goes on after it with plain segments is this path and the
segments, `read_path_under`, and what an address has itself is the same up to slashes at its end,
`read_path_slashes`.
-/

namespace Rewards.Url

/-! ## Segments -/

/-- Segments as a path. -/
def join (segments : List (List Char)) : List Char :=
  segments.flatMap fun segment => '/' :: segment

theorem join_cons (segment : List Char) (segments : List (List Char)) :
    join (segment :: segments) = '/' :: segment ++ join segments := rfl

@[simp] theorem join_append (first second : List (List Char)) :
    join (first ++ second) = join first ++ join second :=
  List.flatMap_append

@[simp] theorem join_singleton (segment : List Char) : join [segment] = '/' :: segment :=
  List.flatMap_singleton ..

/-- The pieces of a text between its slashes are a path again. -/
theorem join_split (cs : List Char) : join (Text.split '/' cs) = '/' :: cs := by
  induction cs with
  | nil => rfl
  | cons c cs ih =>
      rw [Text.split]
      split
      · rename_i hc
        rw [join_cons, ih, hc]
        rfl
      · cases hpieces : Text.split '/' cs with
        | nil =>
            rw [hpieces] at ih
            cases ih
        | cons first pieces =>
            rw [hpieces, join_cons, List.cons_append, List.cons.injEq] at ih
            rw [← ih.2]
            rfl

/-- The segments so far in reverse, after segments that are followed by others. -/
def walk (done : List (List Char)) : List (List Char) → List (List Char)
  | [] => done
  | segment :: rest =>
      if plainPoints segment = ['.', '.'] then walk (done.drop 1) rest
      else if plainPoints segment = ['.'] then walk done rest
      else walk (escape pathSet segment :: done) rest

variable {done segments rest : List (List Char)}

theorem walk_append (done segments rest : List (List Char)) :
    walk done (segments ++ rest) = walk (walk done segments) rest := by
  induction segments generalizing done with
  | nil => rfl
  | cons segment segments ih =>
      rw [List.cons_append, walk, walk]
      split_ifs <;> exact ih _

/-- Segments are resolved before those that follow them. -/
theorem resolve_append (hrest : rest ≠ []) :
    resolve done (segments ++ rest) = resolve (walk done segments) rest := by
  induction segments generalizing done with
  | nil => rfl
  | cons segment segments ih =>
      have hmore : (segments ++ rest).isEmpty = false := by
        rw [List.isEmpty_eq_false_iff]
        exact List.append_ne_nil_of_right_ne_nil _ hrest
      rw [List.cons_append, resolve, walk, hmore]
      simp only [Bool.false_eq_true, if_false]
      split_ifs <;> exact ih

/-- A segment that is kept as it is. -/
def IsPlainSegment (segment : List Char) : Prop :=
  plainPoints segment ≠ ['.', '.'] ∧ plainPoints segment ≠ ['.'] ∧
    escape pathSet segment = segment

/-- A segment without percent escapes is decoded to itself. -/
theorem plain_points_eq {cs : List Char} (h : '%' ∉ cs) : plainPoints cs = cs := by
  fun_induction plainPoints cs with
  | case1 rest ih | case2 rest ih => exact absurd List.mem_cons_self h
  | case3 c rest _ _ ih => rw [ih fun hmem => h (List.mem_cons_of_mem c hmem)]
  | case4 => rfl

/-- A segment of letters and digits is plain. -/
theorem plain_of_alphanumeric {segment : List Char} (h : ∀ c ∈ segment, c.isAlphanum = true) :
    IsPlainSegment segment := by
  have hkept : ∀ n ≤ 122, (Char.ofNat n).isAlphanum = true →
      (n < 32 || 126 < n || pathSet.contains (Char.ofNat n)) = false := by decide
  have hpoint : '.' ∉ segment := fun hmem => absurd (h _ hmem) (by decide)
  have hpercent : '%' ∉ segment := fun hmem => absurd (h _ hmem) (by decide)
  have hescape : escape pathSet segment = segment := by
    clear hpoint hpercent
    induction segment with
    | nil => rfl
    | cons c cs ih =>
        have hc := h c List.mem_cons_self
        have hsame := hkept c.toNat (Text.alphanum_range hc).2
        rw [Char.ofNat_toNat] at hsame
        rw [escape, List.flatMap_cons, ← escape, ih fun d hd => h d (List.mem_cons_of_mem c hd),
          if_neg (by rw [hsame hc]; exact Bool.false_ne_true), List.singleton_append]
  rw [IsPlainSegment, plain_points_eq hpercent]
  refine ⟨?_, ?_, hescape⟩ <;>
  · rintro rfl
    exact hpoint List.mem_cons_self

/-- Plain segments are kept. -/
theorem resolve_plain (h : ∀ segment ∈ rest, IsPlainSegment segment) :
    resolve done rest = done.reverse ++ rest := by
  induction rest generalizing done with
  | nil => rw [resolve, List.append_nil]
  | cons segment rest ih =>
      obtain ⟨htwo, hone, hescape⟩ := h segment List.mem_cons_self
      rw [resolve, if_neg htwo, if_neg hone, hescape,
        ih fun other hother => h other (List.mem_cons_of_mem _ hother), List.reverse_cons,
        List.append_assoc]
      rfl

/-! ## Slashes at the end -/

/-- Characters without the slashes at their end. -/
def withoutSlashes (cs : List Char) : List Char := cs.rdropWhile (· == '/')

theorem without_slashes_replicate (cs : List Char) (count : Nat) :
    withoutSlashes (cs ++ List.replicate count '/') = withoutSlashes cs := by
  induction count with
  | zero => rw [List.replicate_zero, List.append_nil]
  | succ count ih =>
      rw [List.replicate_succ', ← List.append_assoc, withoutSlashes,
        List.rdropWhile_concat_pos (· == '/') _ _ (beq_self_eq_true _)]
      exact ih

/-- What the last segment of a path comes to, beside what it comes to before others. -/
theorem last_cases (done : List (List Char)) (segment : List Char) :
    (resolve done [segment] = (done.drop 1).reverse ++ [[]] ∧ walk done [segment] = done.drop 1) ∨
    (resolve done [segment] = done.reverse ++ [[]] ∧ walk done [segment] = done) ∨
    (resolve done [segment] = done.reverse ++ [escape pathSet segment] ∧
      walk done [segment] = escape pathSet segment :: done) := by
  simp only [resolve, walk, List.isEmpty_nil, if_true, List.reverse_cons]
  split_ifs
  · exact .inl ⟨rfl, rfl⟩
  · exact .inr (.inl ⟨rfl, rfl⟩)
  · exact .inr (.inr ⟨rfl, rfl⟩)

/-- The last segment of a path counts as one that is followed by others, up to slashes at the
end. -/
theorem without_slashes_last (done : List (List Char)) (segment : List Char) :
    withoutSlashes (join (resolve done [segment])) =
      withoutSlashes (join (walk done [segment]).reverse) := by
  have hend (segments : List (List Char)) :
      withoutSlashes (join (segments.reverse ++ [[]])) =
        withoutSlashes (join segments.reverse) := by
    rw [join_append, join_singleton]
    exact without_slashes_replicate _ 1
  rcases last_cases done segment with ⟨hlast, hwalk⟩ | ⟨hlast, hwalk⟩ | ⟨hlast, hwalk⟩
  · rw [hlast, hwalk, hend]
  · rw [hlast, hwalk, hend]
  · rw [hlast, hwalk, List.reverse_cons]

/-- The last segment of a path adds itself at most. -/
theorem length_last_le (done : List (List Char)) (segment : List Char) :
    (join (resolve done [segment])).length ≤
      (join done.reverse).length + 1 + (escape pathSet segment).length := by
  have hdrop : (join (done.drop 1).reverse).length ≤ (join done.reverse).length := by
    cases done with
    | nil => exact Nat.le_refl _
    | cons first done =>
        rw [List.drop_one, List.tail_cons, List.reverse_cons, join_append, List.length_append]
        exact Nat.le_add_right _ _
  rcases last_cases done segment with ⟨hlast, -⟩ | ⟨hlast, -⟩ | ⟨hlast, -⟩
  · rw [hlast, join_append, join_singleton, List.length_append, List.length_cons, List.length_nil]
    omega
  · rw [hlast, join_append, join_singleton, List.length_append, List.length_cons, List.length_nil]
    omega
  · rw [hlast, join_append, join_singleton, List.length_append, List.length_cons]
    omega

/-! ## Paths under an address -/

/-- Characters with slashes for backslashes. -/
def slashed (cs : List Char) : List Char := cs.map fun c => if c = '\\' then '/' else c

/-- Without backslashes they stay. -/
theorem slashed_eq {cs : List Char} (h : '\\' ∉ cs) : slashed cs = cs := by
  refine (List.map_congr_left fun c hc => if_neg ?_).trans (List.map_id cs)
  rintro rfl
  exact h hc

/-- There is nothing after an authority, or a slash comes first. -/
def StartsPath (cs : List Char) : Prop := ∀ c ∈ cs.head?, c = '/' ∨ c = '\\'

/-- A path of letters, digits and slashes. -/
def IsPlainPath (cs : List Char) : Prop := ∀ c ∈ cs, c.isAlphanum = true ∨ c = '/'

section PlainPath

variable {cs : List Char} (h : IsPlainPath cs)
include h

/-- It has no backslashes. -/
theorem IsPlainPath.slashed_eq : slashed cs = cs :=
  Url.slashed_eq fun hmem => absurd (h _ hmem) (by decide)

/-- Its segments are plain. -/
theorem IsPlainPath.plain_segments : ∀ segment ∈ Text.split '/' cs, IsPlainSegment segment := by
  intro segment hsegment
  refine plain_of_alphanumeric fun c hc => ?_
  have hslash : c ≠ '/' := by
    rintro rfl
    exact Text.not_mem_of_split hsegment hc
  have hmem : c ∈ join (Text.split '/' cs) :=
    List.mem_flatMap.mpr ⟨segment, hsegment, List.mem_cons_of_mem _ hc⟩
  rw [join_split] at hmem
  exact (h c ((List.mem_cons.mp hmem).resolve_left hslash)).resolve_right hslash

end PlainPath

/-- What the paths under an address begin with. -/
def pathUnder : List Char → List Char
  | [] => []
  | _ :: rest => join (walk [] (Text.split '/' (slashed rest))).reverse

/-- A path is what its segments come to. -/
theorem read_path_cons {c : Char} (h : c = '/' ∨ c = '\\') (cs : List Char) :
    readPath (c :: cs) = join (resolve [] (Text.split '/' (slashed cs))) := by
  rcases h with rfl | rfl <;> rfl

section Under

variable {cs : List Char} (h : StartsPath cs)
include h

/-- A path that goes on with plain segments. -/
theorem read_path_under {more : List Char} (hmore : IsPlainPath more) :
    readPath (cs ++ '/' :: more) = pathUnder cs ++ '/' :: more := by
  have hslashes := hmore.slashed_eq
  have hplain := hmore.plain_segments
  cases cs with
  | nil =>
      rw [List.nil_append, read_path_cons (.inl rfl), hslashes, resolve_plain hplain,
        List.reverse_nil, List.nil_append, join_split]
      rfl
  | cons c cs =>
      have hsplit : Text.split '/' (slashed (cs ++ '/' :: more)) =
          Text.split '/' (slashed cs) ++ Text.split '/' more := by
        rw [slashed, List.map_append, List.map_cons, ← slashed, ← slashed, hslashes]
        exact Text.split_separator '/' _ _
      have hne : Text.split '/' more ≠ [] := (Text.split_eq_iff.mp rfl).1
      rw [List.cons_append, read_path_cons (h c rfl), hsplit, resolve_append hne,
        resolve_plain hplain, join_append, join_split, pathUnder]

/-- Slashes after an address do not count, up to slashes at the end of its path. -/
theorem read_path_slashes (count : Nat) :
    withoutSlashes (readPath (cs ++ List.replicate count '/')) = withoutSlashes (pathUnder cs) := by
  cases count with
  | zero =>
      rw [List.replicate_zero, List.append_nil]
      cases cs with
      | nil => rfl
      | cons c cs =>
          obtain ⟨pieces, last, hsplit, -⟩ := Text.split_last_piece '/' (slashed cs)
          rw [read_path_cons (h c rfl), pathUnder, hsplit, resolve_append (List.cons_ne_nil _ _),
            without_slashes_last, walk_append]
  | succ count =>
      have hread := read_path_under h fun c hc => .inr (List.eq_of_mem_replicate (n := count) hc)
      rw [List.replicate_succ, hread, ← List.replicate_succ, without_slashes_replicate]

end Under

/-! ## Blanks inside -/

/-- A character that no escape of a point has is kept. -/
theorem mem_plain_points {c : Char} {cs : List Char} (h : c ∈ cs) (hc : c ∉ ['%', '2', 'e', 'E']) :
    c ∈ plainPoints cs := by
  fun_induction plainPoints cs with
  | case1 rest ih | case2 rest ih =>
      simp only [List.mem_cons, List.not_mem_nil, or_false, not_or] at h hc
      obtain ⟨hpercent, htwo, hsmall, hlarge⟩ := hc
      refine List.mem_cons_of_mem _ (ih ?_)
      simpa only [hpercent, htwo, hsmall, hlarge, false_or] using h
  | case3 d rest _ _ ih =>
      rcases List.mem_cons.mp h with rfl | hrest
      · exact List.mem_cons_self
      · exact List.mem_cons_of_mem _ (ih hrest)
  | case4 => cases h

/-- A segment with a blank is no point, so it is kept. -/
theorem walk_blank {b : Char} {segment : List Char} (hmem : b ∈ segment) (hblank : b.toNat ≤ 32)
    (done : List (List Char)) : walk done [segment] = escape pathSet segment :: done := by
  have hother (c : Char) (hc : 32 < c.toNat) : b ≠ c := by
    rintro rfl
    exact Nat.not_le_of_lt hc hblank
  have hplain : b ∈ plainPoints segment := by
    refine mem_plain_points hmem ?_
    simp only [List.mem_cons, List.not_mem_nil, or_false, not_or]
    exact ⟨hother _ (by decide), hother _ (by decide), hother _ (by decide), hother _ (by decide)⟩
  have hpoint : b ≠ '.' := hother _ (by decide)
  rw [walk, if_neg, if_neg, walk]
  · intro hone
    rw [hone, List.mem_singleton] at hplain
    exact hpoint hplain
  · intro htwo
    rw [htwo, List.mem_cons, List.mem_singleton, or_self] at hplain
    exact hpoint hplain

/-- Escaping makes no text shorter. -/
theorem length_le_escape (set cs : List Char) : cs.length ≤ (escape set cs).length := by
  induction cs with
  | nil => exact Nat.zero_le _
  | cons c cs ih =>
      have hone : 1 ≤ (escape set [c]).length := by
        obtain ⟨a, tail, hencoded, -⟩ := Text.sequence_encode c
        rw [escape, List.flatMap_singleton]
        split
        · rw [Text.utf8_of_chars, String.toList_singleton, Text.bytes, List.flatMap_singleton,
            hencoded, List.flatMap_cons, escapeByte]
          exact Nat.le_add_left 1 _
        · exact Nat.le_refl 1
      rw [← List.singleton_append, escape, List.flatMap_append, List.length_append,
        List.length_append]
      exact Nat.add_le_add hone ih

/-- Blanks that an address ends in become part of the paths under it. -/
theorem length_path_lt {c : Char} (hc : c = '/' ∨ c = '\\') (cs : List Char) {blanks : List Char}
    (hblanks : blanks ≠ []) (hblank : ∀ b ∈ blanks, b.toNat ≤ 32) :
    (readPath (c :: cs)).length < (pathUnder (c :: cs ++ blanks)).length := by
  obtain ⟨pieces, last, hsplit, hmore⟩ := Text.split_last_piece '/' (slashed cs)
  have hslashed := slashed_eq fun hmem => absurd (hblank _ hmem) (by decide)
  have hnone : '/' ∉ blanks := fun hmem => absurd (hblank _ hmem) (by decide)
  have hkept : walk (walk [] pieces) [last ++ blanks] =
      escape pathSet (last ++ blanks) :: walk [] pieces := by
    obtain ⟨b, hb⟩ := List.exists_mem_of_ne_nil _ hblanks
    exact walk_blank (List.mem_append_right _ hb) (hblank b hb) _
  have hunder : pathUnder (c :: cs ++ blanks) =
      join (walk [] pieces).reverse ++ '/' :: escape pathSet (last ++ blanks) := by
    rw [List.cons_append, pathUnder, slashed, List.map_append, ← slashed, ← slashed, hslashed,
      hmore blanks hnone, walk_append, hkept, List.reverse_cons, join_append, join_singleton]
  have hpath := length_last_le (walk [] pieces) last
  have hescape := length_le_escape pathSet blanks
  have hpositive := List.length_pos_iff_ne_nil.mpr hblanks
  rw [hunder, read_path_cons hc, hsplit, resolve_append (List.cons_ne_nil _ _), List.length_append,
    List.length_cons, escape, List.flatMap_append, ← escape, ← escape, List.length_append]
  omega

end Rewards.Url
