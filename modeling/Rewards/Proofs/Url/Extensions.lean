import Rewards.Proofs.Text.Bytes
import Rewards.Proofs.Url.Hosts
import Rewards.Proofs.Url.Layout

/-!
# Addresses under another one

An address is put under another one by going on from its characters, without the slashes at their
end. If the other one has no blank at its end the two are read alike up to its path,
`read_extended`. Otherwise the blanks are inside the new address: in its path, or in its authority,
which cannot have any, `read_extended_blank`.
-/

namespace Rewards.Url

/-- The character before the breaks at the end, if there is one, is no blank. -/
def NoBlankEnd (text : String) : Prop :=
  ∀ c ∈ (text.toList.filter (!isBreak ·)).getLast?, isOuterBlank c = false

section Extension

variable {more : List Char} (h : IsPlainPath more)
include h

/-- A plain path has no character that does not count. -/
theorem IsPlainPath.not_blank {c : Char} (hc : c ∈ '/' :: more) : isOuterBlank c = false := by
  rcases List.mem_cons.mp hc with rfl | hc
  · rfl
  · rcases h c hc with halphanumeric | rfl
    · have hlow := (Text.alphanum_range halphanumeric).1
      rw [isOuterBlank, decide_eq_false_iff_not]
      omega
    · rfl

/-- An address that goes on with a plain path is kept up to its end. -/
theorem clean_extended (base : List Char) :
    clean (base ++ '/' :: more) = opening base ++ '/' :: more := by
  have hbreaks : ∀ c ∈ '/' :: more, isBreak c = false := by
    intro c hc
    rw [Bool.eq_false_iff]
    intro hbreak
    have hblank := blank_of_break hbreak
    rw [h.not_blank hc] at hblank
    cases hblank
  have hlast := h.not_blank (List.getLast_mem (List.cons_ne_nil '/' more))
  rw [clean_eq, opening_append base (fun c hc => h.not_blank (List.mem_of_mem_head? hc)) hbreaks,
    List.rdropWhile_eq_self_iff]
  intro hne
  rw [List.getLast_append_of_ne_nil _ (List.cons_ne_nil '/' more), hlast]
  exact Bool.false_ne_true

end Extension

/-- A plain path has no mark of a query or of a fragment. -/
theorem IsPlainPath.path_chars {cs : List Char} (h : IsPlainPath cs) :
    ∀ c ∈ '/' :: cs, isPathChar c = true := by
  rw [all_path_chars_iff]
  constructor <;>
  · intro hmem
    rcases List.mem_cons.mp hmem with heq | hmem
    · cases heq
    · rcases h _ hmem with halphanumeric | heq
      · cases halphanumeric
      · cases heq

/-- Of the characters that end an authority only slashes belong to a path. -/
theorem starts_path {cs : List Char} (hhead : ∀ c ∈ cs.head?, endsAuthority true c = true)
    (hchars : ∀ c ∈ cs, isPathChar c = true) : StartsPath cs := by
  intro c hc
  have hend := hhead c hc
  have hpath := hchars c (List.mem_of_mem_head? hc)
  simp only [endsAuthority, isPathChar, Bool.true_and, Bool.or_eq_true, Bool.and_eq_true,
    decide_eq_true_eq] at hend hpath
  tauto

/-- What goes on with a slash goes on after an authority. -/
theorem head_extended {cs : List Char} (hcs : ∀ c ∈ cs.head?, endsAuthority true c = true)
    (more : List Char) : ∀ c ∈ (cs ++ '/' :: more).head?, endsAuthority true c = true := by
  cases cs with
  | nil =>
      rintro c ⟨⟩
      rfl
  | cons c cs => exact hcs

/-- The slashes at the end of an address come after its authority. -/
theorem tail_before_slashes {l : Layout} {cs : List Char} {count : Nat}
    (h : cs ++ List.replicate count '/' = l.chars) :
    ∃ tail, cs = l.front ++ l.authority ++ tail ∧ l.tail = tail ++ List.replicate count '/' := by
  rcases List.append_eq_append_iff.mp h with ⟨m, hfront, hslashes⟩ | ⟨m, hcs, htail⟩
  · cases m with
    | nil =>
        refine ⟨[], ?_, hslashes.symm⟩
        rw [List.append_nil, hfront, List.append_nil]
    | cons first m =>
        -- Then the authority ends in a slash, but it has none.
        have hlast := congrArg List.getLast? hfront
        rw [List.getLast?_append_of_ne_nil _ l.authority_ne_nil,
          List.getLast?_append_of_ne_nil _ (List.cons_ne_nil first m),
          List.getLast?_eq_some_getLast (List.cons_ne_nil first m)] at hlast
        have hend := List.getLast_mem (List.cons_ne_nil first m)
        have hslash := List.eq_of_mem_replicate (hslashes ▸ List.mem_append_left _ hend)
        have hinside := l.authority_inside _ (List.mem_of_getLast? hlast)
        rw [hslash] at hinside
        cases hinside
  · exact ⟨m, hcs, htail⟩

/-- An address of the web is what counts of it, and blanks at its end. -/
theorem opening_eq_clean_append (cs : List Char) :
    ∃ blanks, opening cs = clean cs ++ blanks ∧
      ∀ b ∈ blanks, isOuterBlank b = true ∧ isBreak b = false := by
  refine ⟨(opening cs).rtakeWhile isOuterBlank, ?_, fun b hb => ⟨List.mem_rtakeWhile_imp hb, ?_⟩⟩
  · rw [clean_eq, List.rdropWhile_append_rtakeWhile]
  · have hkept := (List.rtakeWhile_suffix isOuterBlank (opening cs)).mem hb
    simpa using (List.mem_filter.mp hkept).2

/-- There are none exactly if the address has no blank at its end. -/
theorem opening_eq_clean_iff {text : String} (hne : clean text.toList ≠ []) :
    opening text.toList = clean text.toList ↔ NoBlankEnd text := by
  have hnonempty : opening text.toList ≠ [] := by
    obtain ⟨blanks, hblanks, -⟩ := opening_eq_clean_append text.toList
    rw [hblanks]
    exact List.append_ne_nil_of_left_ne_nil hne _
  have hlast : (text.toList.filter (!isBreak ·)).getLast? =
      some ((opening text.toList).getLast hnonempty) := by
    obtain ⟨before, hbefore⟩ := List.dropWhile_suffix isOuterBlank
      (l := text.toList.filter (!isBreak ·))
    rw [drop_filter] at hbefore
    rw [← hbefore, List.getLast?_append_of_ne_nil _ hnonempty,
      List.getLast?_eq_some_getLast hnonempty]
  rw [clean_eq, eq_comm, List.rdropWhile_eq_self_iff, NoBlankEnd, hlast]
  simp [hnonempty]

/-- An address that ends in blanks does not end in slashes. -/
theorem blanks_after_slashes {cs chars blanks : List Char} {count : Nat}
    (h : cs ++ List.replicate count '/' = chars ++ blanks) (hne : blanks ≠ [])
    (hblank : ∀ b ∈ blanks, isOuterBlank b = true) : cs = chars ++ blanks := by
  cases count with
  | zero => rwa [List.replicate_zero, List.append_nil] at h
  | succ count =>
      have hlast := congrArg List.getLast? h
      rw [List.replicate_succ', ← List.append_assoc, List.getLast?_concat,
        List.getLast?_append_of_ne_nil _ hne] at hlast
      have hslash := hblank _ (List.mem_of_getLast? hlast.symm)
      cases hslash

/-- An address with blanks at the end of its authority cannot be read. -/
theorem read_blank_authority {l : Layout} (hspecial : isSpecial l.scheme = true)
    {blanks : List Char} (hblanks : IsBlankText blanks) {text : String} {more : List Char}
    (hclean : clean text.toList = l.front ++ (l.authority ++ blanks) ++ '/' :: more) (u : Url) :
    read text ≠ .ok u := by
  have hinside : ∀ c ∈ l.authority ++ blanks, endsAuthority true c = false := by
    intro c hc
    rcases List.mem_append.mp hc with hc | hc
    · exact l.authority_inside c hc
    · have hsmall : ∀ n ≤ 32, endsAuthority true (Char.ofNat n) = false := by decide
      have hc := hsmall c.toNat (hblanks.2 c hc)
      rwa [Char.ofNat_toNat] at hc
  have hnone : ∀ c ∈ ([] : List Char).head?, endsAuthority true c = true := nofun
  let k : Layout := { l with
    authority := l.authority ++ blanks
    tail := '/' :: more
    authority_ne_nil := List.append_ne_nil_of_left_ne_nil l.authority_ne_nil _
    authority_inside := hinside
    tail_head := head_extended hnone more }
  have hk : clean text.toList = k.chars := hclean
  intro hu
  rw [read_layout k hspecial hk] at hu
  cases hauthority : readAuthority k.scheme (l.authority ++ blanks) with
  | error e =>
      rw [Layout.base, hauthority] at hu
      cases hu
  | ok parts => exact read_authority_blanks hspecial hblanks _ _ hauthority

section Extended

variable {address base : String} {count : Nat} {url : Url}
  (hbase : address.toList = base.toList ++ List.replicate count '/')
  (hread : read address = .ok url) (hspecial : isSpecial url.scheme = true)
include hbase

/-- The slashes at the end of an address stay. -/
theorem opening_base :
    opening address.toList = opening base.toList ++ List.replicate count '/' := by
  rw [hbase, opening_append]
  · intro c hc
    rw [List.eq_of_mem_replicate (List.mem_of_mem_head? hc)]
    rfl
  · intro c hc
    rw [List.eq_of_mem_replicate hc]
    rfl

include hread hspecial

/-- An address without a blank at its end is kept up to slashes at its end, and others go on from
there. -/
theorem read_extended (hend : NoBlankEnd address) :
    ∃ (start : Url) (tail : List Char), isSpecial start.scheme = true ∧
      (∀ c ∈ tail.head?, endsAuthority true c = true) ∧
      url = readTail start (tail ++ List.replicate count '/') ∧
      ∀ (text : String) (more : List Char), text.toList = base.toList ++ '/' :: more →
        IsPlainPath more → read text = .ok (readTail start (tail ++ '/' :: more)) := by
  obtain ⟨l, start, hclean, hstart, hscheme, hsame, hurl⟩ := exists_layout hread hspecial
  have hne : clean address.toList ≠ [] := hclean ▸ l.chars_ne_nil
  have hopening := (opening_eq_clean_iff hne).mpr hend
  rw [opening_base hbase, hclean] at hopening
  obtain ⟨tail, hfront, htail⟩ := tail_before_slashes hopening
  have hhead : ∀ c ∈ tail.head?, endsAuthority true c = true := by
    intro c hc
    refine l.tail_head c ?_
    rw [htail, List.head?_append, hc]
    rfl
  refine ⟨start, tail, hscheme ▸ hspecial, hhead, htail ▸ hurl, fun text more htext hmore => ?_⟩
  let k : Layout := l.withTail (tail ++ '/' :: more) (head_extended hhead more)
  have hk : clean text.toList = k.chars := by
    rw [htext, clean_extended hmore, hfront, List.append_assoc]
    rfl
  have hbaseK : k.base = .ok start := hstart
  rw [read_layout k (hsame ▸ hspecial) hk, hbaseK]
  rfl

/-- The blanks at the end of an address stay inside the others, so these go on from a path that is
longer. -/
theorem read_extended_blank (hend : ¬ NoBlankEnd address) {text : String} {more : List Char}
    (htext : text.toList = base.toList ++ '/' :: more) (hmore : IsPlainPath more) {u : Url}
    (hu : read text = .ok u) :
    ∃ (start : Url) (c : Char) (rest blanks : List Char), isSpecial start.scheme = true ∧
      endsAuthority true c = true ∧ IsBlankText blanks ∧ url = readTail start (c :: rest) ∧
      u = readTail start (c :: rest ++ blanks ++ '/' :: more) := by
  obtain ⟨l, start, hclean, hstart, hscheme, hsame, hurl⟩ := exists_layout hread hspecial
  have hne : clean address.toList ≠ [] := hclean ▸ l.chars_ne_nil
  obtain ⟨blanks, hblanks, hblank⟩ := opening_eq_clean_append address.toList
  have hblanksNe : blanks ≠ [] := by
    rintro rfl
    rw [List.append_nil] at hblanks
    exact hend ((opening_eq_clean_iff hne).mp hblanks)
  have hspaces : IsBlankText blanks :=
    ⟨hblanksNe, fun b hb => by simpa [isOuterBlank] using (hblank b hb).1⟩
  have hcount : opening base.toList = l.chars ++ blanks := by
    rw [opening_base hbase, hclean] at hblanks
    exact blanks_after_slashes hblanks hblanksNe fun b hb => (hblank b hb).1
  have hwhole : clean text.toList = l.chars ++ blanks ++ '/' :: more := by
    rw [htext, clean_extended hmore, hcount]
  cases htail : l.tail with
  | nil =>
      rw [Layout.chars, htail, List.append_nil, List.append_assoc l.front] at hwhole
      exact absurd hu (read_blank_authority (hsame ▸ hspecial) hspaces hwhole u)
  | cons c rest =>
      have hhead := l.tail_head
      rw [htail] at hhead
      let k : Layout := l.withTail (c :: rest ++ blanks ++ '/' :: more) hhead
      have hk : clean text.toList = k.chars := by
        rw [hwhole, Layout.chars, htail]
        simp only [k, Layout.chars, Layout.withTail, Layout.front, List.append_assoc]
      rw [read_layout k (hsame ▸ hspecial) hk] at hu
      have hstartK : k.base = .ok start := hstart
      rw [hstartK] at hu
      cases hu
      exact ⟨start, c, rest, blanks, hscheme ▸ hspecial, hhead c rfl, hspaces, htail ▸ hurl, rfl⟩

/-- Under an address without a query, a fragment and a blank at its end there are the addresses that
differ from it by their path only. -/
theorem read_under (hend : NoBlankEnd address) (hquery : url.query = none)
    (hfragment : url.fragment = none) :
    ∃ under, withoutSlashes url.path = withoutSlashes under ∧
      ∀ (text : String) (more : List Char), text.toList = base.toList ++ '/' :: more →
        IsPlainPath more → read text = .ok { url with path := under ++ '/' :: more } := by
  obtain ⟨start, tail, hscheme, hhead, hurl, hextended⟩ := read_extended hbase hread hspecial hend
  have hchars := (read_tail_none_iff start _).mp ⟨hurl ▸ hquery, hurl ▸ hfragment⟩
  have htail : ∀ c ∈ tail, isPathChar c = true := fun c hc => hchars c (List.mem_append_left _ hc)
  have hstarts := starts_path hhead htail
  rw [read_tail_plain hscheme hchars] at hurl
  subst hurl
  refine ⟨pathUnder tail, read_path_slashes hstarts count, fun text more htext hmore => ?_⟩
  have hmoreChars : ∀ c ∈ tail ++ '/' :: more, isPathChar c = true :=
    List.forall_mem_append.mpr ⟨htail, hmore.path_chars⟩
  rw [hextended text more htext hmore, read_tail_plain hscheme hmoreChars,
    read_path_under hstarts hmore]

/-- An address under which there is one without a query and a fragment has none itself. -/
theorem none_of_extended (hend : NoBlankEnd address) {text : String} {more : List Char}
    (htext : text.toList = base.toList ++ '/' :: more) (hmore : IsPlainPath more) {u : Url}
    (hu : read text = .ok u) (hquery : u.query = none) (hfragment : u.fragment = none) :
    url.query = none ∧ url.fragment = none := by
  obtain ⟨start, tail, -, -, hurl, hextended⟩ := read_extended hbase hread hspecial hend
  rw [hextended text more htext hmore] at hu
  cases hu
  have hchars := (read_tail_none_iff start _).mp ⟨hquery, hfragment⟩
  rw [hurl, read_tail_none_iff]
  refine List.forall_mem_append.mpr
    ⟨fun c hc => hchars c (List.mem_append_left _ hc), fun c hc => ?_⟩
  rw [List.eq_of_mem_replicate hc]
  rfl

/-- An address with a blank at its end has no path in common with those under it. -/
theorem path_ne_of_blank (hend : ¬ NoBlankEnd address) {text : String} {more : List Char}
    (htext : text.toList = base.toList ++ '/' :: more) (hmore : IsPlainPath more) {u : Url}
    (hu : read text = .ok u) (hquery : u.query = none) (hfragment : u.fragment = none) :
    u.path ≠ withoutSlashes url.path ++ '/' :: more := by
  obtain ⟨start, c, rest, blanks, hscheme, hc, hblanks, hurl, hsame⟩ :=
    read_extended_blank hbase hread hspecial hend htext hmore hu
  have hchars := (read_tail_none_iff start _).mp ⟨hsame ▸ hquery, hsame ▸ hfragment⟩
  have hinside : ∀ d ∈ c :: rest ++ blanks, isPathChar d = true :=
    fun d hd => hchars d (List.mem_append_left _ hd)
  have hown : ∀ d ∈ c :: rest, isPathChar d = true :=
    fun d hd => hinside d (List.mem_append_left _ hd)
  have hstarts : StartsPath (c :: rest ++ blanks) := by
    refine starts_path ?_ hinside
    rintro d ⟨⟩
    exact hc
  have hlength := length_path_lt (hstarts c rfl) rest hblanks.1 hblanks.2
  have htrimmed : (withoutSlashes (readPath (c :: rest))).length ≤ (readPath (c :: rest)).length :=
    (List.rdropWhile_prefix (· == '/') _).length_le
  rw [hsame, hurl, read_tail_plain hscheme hown, read_tail_plain hscheme hchars,
    read_path_under hstarts hmore]
  intro heq
  have hsame : (pathUnder (c :: rest ++ blanks)).length =
      (withoutSlashes (readPath (c :: rest))).length :=
    congrArg List.length (List.append_cancel_right heq)
  omega

end Extended

end Rewards.Url
