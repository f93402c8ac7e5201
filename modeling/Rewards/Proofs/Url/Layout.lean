import Rewards.Proofs.Url.Paths

/-!
# The parts of an address

A `Layout` is an address of the web taken apart: the letters of its scheme, slashes, an authority
and what comes after it. An address that is read has one, `exists_layout`, and is read from its
parts, `read_layout`. So two addresses that differ after the authority only are read alike up to
there.
-/

namespace Rewards.Url

/-! ## Characters that do not count -/

/-- Characters without those at the front that do not count, and without breaks. -/
def opening (cs : List Char) : List Char := (cs.dropWhile isOuterBlank).filter (!isBreak ·)

/-- A break does not count at the ends either. -/
theorem blank_of_break {c : Char} (h : isBreak c = true) : isOuterBlank c = true := by
  simp only [isBreak, Bool.or_eq_true, decide_eq_true_eq] at h
  rcases h with (rfl | rfl) | rfl <;> decide

/-- Breaks are left out before or after the characters at the front. -/
theorem drop_filter (cs : List Char) :
    (cs.filter (!isBreak ·)).dropWhile isOuterBlank = opening cs := by
  have hblank : (fun c => !(!isBreak c) || isOuterBlank c) = isOuterBlank := by
    funext c
    cases hbreak : isBreak c with
    | false => rfl
    | true => rw [blank_of_break hbreak, Bool.or_true]
  rw [List.dropWhile_filter, hblank, opening]

/-- An address counts up to the characters at its end that do not. -/
theorem clean_eq (cs : List Char) : clean cs = (opening cs).rdropWhile isOuterBlank := by
  rw [List.rdropWhile, opening, ← List.filter_reverse, drop_filter, clean, opening,
    List.filter_reverse]

/-- What begins with a character that counts everywhere goes on with a text. -/
theorem opening_append (cs : List Char) {more : List Char}
    (hfirst : ∀ c ∈ more.head?, isOuterBlank c = false) (hbreaks : ∀ c ∈ more, isBreak c = false) :
    opening (cs ++ more) = opening cs ++ more := by
  have hmore : more.dropWhile isOuterBlank = more := by
    cases more with
    | nil => rfl
    | cons c more => exact List.dropWhile_cons_of_neg (by simp [hfirst c rfl])
  have hdrop : (cs ++ more).dropWhile isOuterBlank = cs.dropWhile isOuterBlank ++ more := by
    rw [List.dropWhile_append, hmore]
    split
    · rename_i hempty
      rw [List.isEmpty_iff.mp hempty, List.nil_append]
    · rfl
  have hkept : more.filter (!isBreak ·) = more :=
    List.filter_eq_self.mpr fun c hc => by rw [hbreaks c hc, Bool.not_false]
  rw [opening, hdrop, List.filter_append, hkept, opening]

/-! ## Layouts -/

/-- An address of the web in its parts. -/
structure Layout where
  name : List Char
  slashes : List Char
  authority : List Char
  tail : List Char
  name_head : ∃ c ∈ name.head?, c.isAlpha = true
  name_chars : ∀ c ∈ name, isSchemeChar c = true
  slashes_only : ∀ c ∈ slashes, c = '/' ∨ c = '\\'
  authority_ne_nil : authority ≠ []
  authority_inside : ∀ c ∈ authority, endsAuthority true c = false
  tail_head : ∀ c ∈ tail.head?, endsAuthority true c = true

namespace Layout

variable (l : Layout)

/-- The scheme in small letters. -/
def scheme : String := String.ofList (l.name.map Char.toLower)

/-- The address up to its authority. -/
def front : List Char := l.name ++ ':' :: l.slashes

/-- The address. -/
def chars : List Char := l.front ++ l.authority ++ l.tail

theorem chars_ne_nil : l.chars ≠ [] := by
  simp [chars, front]

/-- The address that its scheme and its authority stand for. -/
def base : Except Error Url :=
  (readAuthority l.scheme l.authority).map fun (userInfo, host, port) =>
    ⟨l.scheme, userInfo, some host, port, [], none, none⟩

/-- The address with something else after its authority. -/
def withTail (tail : List Char) (h : ∀ c ∈ tail.head?, endsAuthority true c = true) : Layout :=
  { l with tail := tail, tail_head := h }

end Layout

/-- A scheme is split off at the colon after its letters. -/
theorem split_scheme_eq_some_iff {cs rest : List Char} {scheme : String} :
    splitScheme? cs = some (scheme, rest) ↔
      ∃ name, cs = name ++ ':' :: rest ∧ (∃ c ∈ name.head?, c.isAlpha = true) ∧
        (∀ c ∈ name, isSchemeChar c = true) ∧ scheme = String.ofList (name.map Char.toLower) := by
  constructor
  · intro h
    unfold splitScheme? at h
    split at h
    · rename_i first more after hafter
      split at h
      · rename_i halpha
        cases h
        have hfirst : isSchemeChar first = true := by
          rw [isSchemeChar, Char.isAlphanum, halpha]
          rfl
        refine ⟨(first :: more).takeWhile isSchemeChar, ?_, ⟨first, ?_, halpha⟩,
          fun c hc => List.mem_takeWhile_imp hc, rfl⟩
        · rw [← hafter, List.takeWhile_append_dropWhile]
        · rw [List.takeWhile_cons_of_pos hfirst]
          rfl
      · cases h
    · cases h
  · rintro ⟨name, rfl, ⟨first, hhead, halpha⟩, hchars, rfl⟩
    obtain ⟨more, rfl⟩ := List.head?_eq_some_iff.mp hhead
    have hdrop : (first :: more ++ ':' :: rest).dropWhile isSchemeChar = ':' :: rest := by
      rw [List.dropWhile_append_of_pos hchars]
      rfl
    have htake : (first :: more ++ ':' :: rest).takeWhile isSchemeChar = first :: more := by
      rw [List.takeWhile_append_of_pos hchars]
      exact List.append_nil _
    unfold splitScheme?
    rw [List.cons_append] at hdrop htake ⊢
    simp only [hdrop, htake, halpha, if_true]

section Special

variable {scheme : String} (hspecial : isSpecial scheme = true)
include hspecial

/-- An authority ends where the next part begins. -/
theorem read_hierarchical_eq {authority tail : List Char}
    (hinside : ∀ c ∈ authority, endsAuthority true c = false)
    (hhead : ∀ c ∈ tail.head?, endsAuthority true c = true) :
    readHierarchical scheme (authority ++ tail) =
      ((readAuthority scheme authority).map fun (userInfo, host, port) =>
        ⟨scheme, userInfo, some host, port, [], none, none⟩).map (readTail · tail) := by
  have hkept : ∀ c ∈ authority, (!endsAuthority true c) = true :=
    fun c hc => by rw [hinside c hc, Bool.not_false]
  have htake : tail.takeWhile (!endsAuthority true ·) = [] := by
    cases tail with
    | nil => rfl
    | cons c tail => exact List.takeWhile_cons_of_neg (by simp [hhead c rfl])
  have hdrop : tail.dropWhile (!endsAuthority true ·) = tail := by
    cases tail with
    | nil => rfl
    | cons c tail => exact List.dropWhile_cons_of_neg (by simp [hhead c rfl])
  unfold readHierarchical
  simp only [hspecial, List.takeWhile_append_of_pos hkept, List.dropWhile_append_of_pos hkept,
    htake, hdrop, List.append_nil]
  cases readAuthority scheme authority <;> rfl

/-- An authority is never empty. -/
theorem read_authority_nil : readAuthority scheme [] = .error .emptyHost := by
  have hlast : Text.splitLast? '@' [] = none := rfl
  unfold readAuthority
  rw [hlast, hspecial]
  rfl

end Special

/-- An address is read from its parts. -/
theorem read_layout (l : Layout) (hspecial : isSpecial l.scheme = true) {text : String}
    (h : clean text.toList = l.chars) :
    read text = l.base.map (readTail · l.tail) := by
  have hsplit : splitScheme? (clean text.toList) =
      some (l.scheme, l.slashes ++ (l.authority ++ l.tail)) := by
    refine split_scheme_eq_some_iff.mpr ⟨l.name, ?_, l.name_head, l.name_chars, rfl⟩
    rw [h, Layout.chars, Layout.front]
    simp only [List.append_assoc, List.cons_append]
  -- The authority does not begin with a slash, so only the slashes before it are skipped.
  have hslashes : (l.slashes ++ (l.authority ++ l.tail)).dropWhile (fun c => c = '/' || c = '\\') =
      l.authority ++ l.tail := by
    obtain ⟨c, cs, hcons⟩ := List.exists_cons_of_ne_nil l.authority_ne_nil
    have hinside := l.authority_inside c (by rw [hcons]; exact List.mem_cons_self)
    have hc : (decide (c = '/') || decide (c = '\\')) = false := by
      simp only [endsAuthority, Bool.true_and, Bool.or_eq_false_iff] at hinside ⊢
      exact ⟨hinside.1.1.1, hinside.2⟩
    rw [List.dropWhile_append_of_pos fun c hc => by simpa using l.slashes_only c hc, hcons,
      List.cons_append]
    exact List.dropWhile_cons_of_neg (by simp [hc])
  unfold read
  simp only [hsplit, hspecial, if_true, hslashes]
  exact read_hierarchical_eq hspecial l.authority_inside l.tail_head

/-- The scheme of an address stays. -/
theorem scheme_of_hierarchical {scheme : String} {cs : List Char} {url : Url}
    (h : readHierarchical scheme cs = .ok url) : url.scheme = scheme := by
  unfold readHierarchical at h
  dsimp only at h
  cases hauthority : readAuthority scheme
      (cs.takeWhile (!endsAuthority (isSpecial scheme) ·)) with
  | error e =>
      rw [hauthority] at h
      cases h
  | ok parts =>
      rw [hauthority] at h
      cases h
      rfl

/-- An address that is read has the scheme that it is written with. -/
theorem scheme_of_read {text : String} {url : Url} (h : read text = .ok url) :
    ∃ rest, splitScheme? (clean text.toList) = some (url.scheme, rest) ∧
      (isSpecial url.scheme = true →
        readHierarchical url.scheme (rest.dropWhile fun c => c = '/' || c = '\\') = .ok url) := by
  unfold read at h
  split at h
  · cases h
  rename_i scheme rest hsplit
  split at h
  · obtain rfl := scheme_of_hierarchical h
    exact ⟨rest, hsplit, fun _ => h⟩
  · rename_i hother
    have hscheme : url.scheme = scheme := by
      split at h
      · split at h
        · cases h
          rfl
        · exact scheme_of_hierarchical h
      · cases h
        rfl
    rw [← hscheme] at hsplit hother
    exact ⟨rest, hsplit, fun hspecial => absurd hspecial hother⟩

/-- An address of the web that is read has parts, and is what they stand for. -/
theorem exists_layout {text : String} {url : Url} (h : read text = .ok url)
    (hspecial : isSpecial url.scheme = true) :
    ∃ (l : Layout) (base : Url), clean text.toList = l.chars ∧ l.base = .ok base ∧
      base.scheme = url.scheme ∧ l.scheme = url.scheme ∧ url = readTail base l.tail := by
  obtain ⟨rest, hsplit, hread⟩ := scheme_of_read h
  obtain ⟨name, hclean, hhead, hchars, hscheme⟩ := split_scheme_eq_some_iff.mp hsplit
  have hread := hread hspecial
  have hrest := List.takeWhile_append_dropWhile
    (p := fun c => decide (c = '/') || decide (c = '\\')) (l := rest)
  generalize hbody : rest.dropWhile (fun c => decide (c = '/') || decide (c = '\\')) = body at *
  have hparts := List.takeWhile_append_dropWhile (p := (!endsAuthority true ·)) (l := body)
  have htail :
      ∀ c ∈ (body.dropWhile (!endsAuthority true ·)).head?, endsAuthority true c = true := by
    intro c hc
    have hend := List.head?_dropWhile_not (!endsAuthority true ·) body
    rw [hc] at hend
    simpa using hend
  have hinside : ∀ c ∈ body.takeWhile (!endsAuthority true ·), endsAuthority true c = false := by
    intro c hc
    simpa using List.mem_takeWhile_imp hc
  have hnonempty : body.takeWhile (!endsAuthority true ·) ≠ [] := by
    intro hempty
    rw [← hparts, read_hierarchical_eq hspecial hinside htail, hempty,
      read_authority_nil hspecial] at hread
    cases hread
  let l : Layout := ⟨name, rest.takeWhile (fun c => decide (c = '/') || decide (c = '\\')),
    body.takeWhile (!endsAuthority true ·), body.dropWhile (!endsAuthority true ·), hhead, hchars,
    fun c hc => by simpa using List.mem_takeWhile_imp hc, hnonempty, hinside, htail⟩
  have hlayout : clean text.toList = l.chars := by
    rw [hclean, Layout.chars, Layout.front]
    simp only [l, List.append_assoc, List.cons_append, hparts, hrest]
  have hsame : l.scheme = url.scheme := hscheme.symm
  have hwhole := read_layout l (hsame ▸ hspecial) hlayout
  rw [h] at hwhole
  cases hbase : l.base with
  | error e =>
      rw [hbase] at hwhole
      cases hwhole
  | ok base =>
      rw [hbase] at hwhole
      cases hwhole
      exact ⟨l, base, hlayout, hbase, rfl, hsame, rfl⟩

/-! ## What comes after an authority -/

/-- The character belongs to the path that comes after an authority. -/
def isPathChar (c : Char) : Bool := c ≠ '?' && c ≠ '#'

/-- Only the marks of a query and of a fragment do not belong to a path. -/
theorem all_path_chars_iff (cs : List Char) :
    (∀ c ∈ cs, isPathChar c = true) ↔ '?' ∉ cs ∧ '#' ∉ cs := by
  simp only [isPathChar, Bool.and_eq_true, decide_eq_true_eq]
  constructor
  · exact fun h => ⟨fun hmem => (h _ hmem).1 rfl, fun hmem => (h _ hmem).2 rfl⟩
  · rintro ⟨hquery, hfragment⟩ c hc
    exact ⟨fun heq => hquery (heq ▸ hc), fun heq => hfragment (heq ▸ hc)⟩

/-- Without the marks of a query and of a fragment there is a path only. -/
theorem read_tail_plain {base : Url} (hspecial : isSpecial base.scheme = true) {cs : List Char}
    (h : ∀ c ∈ cs, isPathChar c = true) :
    readTail base cs = { base with path := readPath cs, query := none, fragment := none } := by
  have htake : cs.takeWhile isPathChar = cs := List.takeWhile_eq_self_iff.mpr h
  have hdrop : cs.dropWhile isPathChar = [] := List.dropWhile_eq_nil_iff.mpr h
  unfold isPathChar at htake hdrop
  simp only [readTail, htake, hdrop, hspecial, if_true]
  rfl

/-- There is no query and no fragment without their marks. -/
theorem read_tail_none_iff (base : Url) (cs : List Char) :
    (readTail base cs).query = none ∧ (readTail base cs).fragment = none ↔
      ∀ c ∈ cs, isPathChar c = true := by
  have hend := List.head?_dropWhile_not isPathChar cs
  rw [← List.dropWhile_eq_nil_iff]
  cases hdrop : cs.dropWhile isPathChar with
  | nil =>
      unfold isPathChar at hdrop
      simp only [readTail, hdrop, Option.map_none, and_self]
  | cons c rest =>
      rw [hdrop] at hend
      simp only [List.head?_cons, isPathChar, Bool.and_eq_false_iff, decide_eq_false_iff_not,
        not_not] at hend
      unfold isPathChar at hdrop
      rcases hend with rfl | rfl <;>
      · simp only [readTail, hdrop]
        simp

end Rewards.Url
