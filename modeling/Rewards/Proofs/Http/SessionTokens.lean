import Rewards.Http.Endpoint
import Rewards.Proofs.Http.Headers
import Rewards.Proofs.Text.Splitting

/-!
# Where the session token is found

A request has its session token in the first authorization header or, if that one is of no use, in
its cookies. `LacksBearer` says when the header is of no use, `CookiePieces` what the cookies are,
and `FirstNamed` which of them counts. The main statement, `session_token_found`, is about all
headers. Its last parts are about a client that got a token: it may send the header back, or the
cookie with any other cookies around.
-/

namespace Rewards.Http

open Text (bytes split strip utf8)

/-! ## Texts that are not empty -/

theorem non_empty_eq_none_iff {cs : List Char} : nonEmpty? cs = none ↔ cs = [] := by
  cases cs <;> simp [nonEmpty?]

theorem non_empty_eq_some_iff {cs : List Char} {text : String} (h : text ≠ "") :
    nonEmpty? cs = some text ↔ cs = text.toList := by
  constructor
  · intro hread
    unfold nonEmpty? at hread
    split at hread
    · cases hread
    · cases hread
      rw [String.toList_ofList]
  · rintro rfl
    have hne : ¬text.toList.isEmpty = true := fun hempty =>
      h (String.toList_eq_nil_iff.mp (List.isEmpty_iff.mp hempty))
    rw [nonEmpty?, if_neg hne, String.ofList_toList]

/-! ## Tokens in the authorization header -/

/-- A token is not empty, and its characters are points and those of base 64 for addresses. -/
def IsToken (token : String) : Prop :=
  token ≠ "" ∧ ∀ c ∈ token.toList, c ∈ Crypto.Base64.urlAlphabet ∨ c = '.'

instance (token : String) : Decidable (IsToken token) :=
  have := List.decidableBAll (fun c => c ∈ Crypto.Base64.urlAlphabet ∨ c = '.') token.toList
  inferInstanceAs (Decidable (_ ∧ _))

/-- Spaces and tabs. -/
def AreSpaces (bytes : List UInt8) : Prop := ∀ b ∈ bytes, b = 9 ∨ b = 32

/-- The headers have this value in the first header with a name. -/
inductive FirstHeader (name : String) (value : List UInt8) : List (String × List UInt8) → Prop where
  | intro (before later : List (String × List UInt8)) :
      (∀ header ∈ before, header.1 ≠ name) →
      FirstHeader name value (before ++ (name, value) :: later)

/-- There is no token in the first authorization header: there is no such header, it cannot be read,
it does not start with the mark, or there are only spaces and tabs behind the mark. -/
inductive LacksBearer (headers : List (String × List UInt8)) : Prop where
  | absent : (∀ header ∈ headers, header.1 ≠ "authorization") → LacksBearer headers
  | unreadable (value : List UInt8) :
      FirstHeader "authorization" value headers → (∃ b ∈ value, ¬IsVisible b) →
      LacksBearer headers
  | unmarked (value : List UInt8) :
      FirstHeader "authorization" value headers → ¬utf8 "Bearer " <+: value →
      LacksBearer headers
  | blank (spaces : List UInt8) :
      FirstHeader "authorization" (utf8 "Bearer " ++ spaces) headers → AreSpaces spaces →
      LacksBearer headers

section Bearer

variable {headers : List (String × List UInt8)} {name : String} {value : List UInt8}

theorem first_header_iff :
    FirstHeader name value headers ↔ (valuesOf headers name).head? = some value := by
  rw [first_value_eq_some_iff]
  constructor
  · rintro ⟨before, later, hbefore⟩
    exact ⟨before, later, rfl, hbefore⟩
  · rintro ⟨before, later, rfl, hbefore⟩
    exact ⟨before, later, hbefore⟩

theorem values_eq_nil_iff :
    valuesOf headers name = [] ↔ ∀ header ∈ headers, header.1 ≠ name := by
  rw [valuesOf, List.map_eq_nil_iff, List.filter_eq_nil_iff]
  simp only [beq_iff_eq, ne_eq]

/-- The mark is printable. -/
theorem mark_visible : (∀ b ∈ utf8 "Bearer ", IsVisible b) ∧
    (utf8 "Bearer ").map character = bearerMark :=
  visible_text_eq_some_iff.mp (visible_text_utf8_iff.mpr ⟨by decide, rfl⟩)

/-- The characters of a token are printable, and none of them is a blank or ends a cookie. -/
theorem IsToken.chars {token : String} (h : IsToken token) :
    ∀ c ∈ token.toList, IsPrintable c ∧ Text.isBlank c = false ∧ c ≠ ';' := by
  have halphabet : (Crypto.Base64.urlAlphabet.all fun c =>
      IsPrintable c ∧ Text.isBlank c = false ∧ c ≠ ';') = true := by
    decide +kernel
  intro c hc
  rcases h.2 c hc with hc | rfl
  · exact of_decide_eq_true (List.all_eq_true.mp halphabet c hc)
  · decide

/-- There is nothing to strip from a token. -/
theorem IsToken.strip_eq {token : String} (h : IsToken token) :
    strip token.toList = token.toList := by
  refine Text.strip_of_no_blanks (List.all_eq_true.mpr fun c hc => ?_)
  rw [(h.chars c hc).2.1]
  rfl

/-- A token behind the mark, with spaces and tabs around, is the token of the request. -/
theorem bearer_token {token : String} (htoken : IsToken token) {before later : List UInt8}
    (hbefore : AreSpaces before) (hlater : AreSpaces later)
    (hfirst : FirstHeader "authorization" (utf8 "Bearer " ++ before ++ utf8 token ++ later)
      headers) :
    bearerToken? headers = some token := by
  obtain ⟨hvisible, hchars⟩ := visible_text_eq_some_iff.mp
    (visible_text_utf8_iff.mpr ⟨fun c hc => (htoken.chars c hc).1, rfl⟩)
  have hread : visibleText? (utf8 "Bearer " ++ before ++ utf8 token ++ later) =
      some (bearerMark ++ (before.map character ++ token.toList ++ later.map character)) := by
    refine visible_text_eq_some_iff.mpr ⟨?_, ?_⟩
    · simp only [List.mem_append]
      rintro b (((hb | hb) | hb) | hb)
      · exact mark_visible.1 b hb
      · exact visible_of_blank (hbefore b hb)
      · exact hvisible b hb
      · exact visible_of_blank (hlater b hb)
    · simp only [List.map_append, mark_visible.2, hchars, List.append_assoc]
  have hmark (cs : List Char) : bearerMark.isPrefixOf (bearerMark ++ cs) = true :=
    List.isPrefixOf_iff_prefix.mpr (List.prefix_append _ _)
  rw [bearerToken?, first_header_iff.mp hfirst]
  simp only [Option.bind_eq_bind, Option.bind_some, hread, hmark, if_true, List.drop_left]
  rw [Text.strip_surrounded (all_blanks hbefore) (all_blanks hlater), htoken.strip_eq]
  exact (non_empty_eq_some_iff htoken.1).mpr rfl

/-- The byte of the character of a visible byte is that byte. -/
theorem map_byte_character {bytes : List UInt8} (h : ∀ b ∈ bytes, IsVisible b) :
    (bytes.map character).map Json.byte = bytes := by
  rw [List.map_map]
  refine (List.map_congr_left fun b hb => ?_).trans (List.map_id bytes)
  have hvalue := character_to_nat (h b hb)
  rw [Function.comp_apply, id, ← UInt8.toNat_inj, Json.byte, hvalue]
  exact Nat.mod_eq_of_lt b.toNat_lt

/-- The mark stands before visible bytes if it stands before their text. -/
theorem marked_iff (hvisible : ∀ b ∈ value, IsVisible b) :
    bearerMark.isPrefixOf (value.map character) = true ↔ utf8 "Bearer " <+: value := by
  rw [List.isPrefixOf_iff_prefix, ← mark_visible.2]
  refine ⟨fun h => ?_, fun h => h.map character⟩
  have hbytes := h.map Json.byte
  rwa [map_byte_character mark_visible.1, map_byte_character hvisible] at hbytes

/-- Visible bytes are blank if they are spaces and tabs. -/
theorem strip_eq_nil_iff_spaces {spaces : List UInt8}
    (hvisible : ∀ b ∈ spaces, IsVisible b) :
    strip (spaces.map character) = [] ↔ AreSpaces spaces := by
  rw [Text.strip_eq_nil_iff, List.all_map, List.all_eq_true]
  exact forall₂_congr fun b hb => blank_iff (hvisible b hb)

/-- There is no token in a value that cannot be read, has no mark or has nothing behind it. -/
theorem bearer_token_eq_none_of_first (hfirst : FirstHeader "authorization" value headers) :
    bearerToken? headers = none ↔
      (∃ b ∈ value, ¬IsVisible b) ∨ ¬utf8 "Bearer " <+: value ∨
        ∃ spaces, value = utf8 "Bearer " ++ spaces ∧ AreSpaces spaces := by
  rw [bearerToken?, first_header_iff.mp hfirst]
  simp only [Option.bind_eq_bind, Option.bind_some]
  cases hread : visibleText? value with
  | none => exact iff_of_true rfl (.inl (visible_text_eq_none_iff.mp hread))
  | some cs =>
      obtain ⟨hvisible, rfl⟩ := visible_text_eq_some_iff.mp hread
      rw [Option.bind_some]
      by_cases hmark : utf8 "Bearer " <+: value
      · rw [if_pos ((marked_iff hvisible).mpr hmark)]
        obtain ⟨rest, rfl⟩ := hmark
        have hrest := strip_eq_nil_iff_spaces fun b hb => hvisible b (List.mem_append_right _ hb)
        rw [List.map_append, mark_visible.2, List.drop_left, non_empty_eq_none_iff, hrest]
        constructor
        · exact fun h => .inr (.inr ⟨rest, rfl, h⟩)
        · rintro (⟨b, hb, hhidden⟩ | hunmarked | ⟨spaces, hspaces, h⟩)
          · exact absurd (hvisible b hb) hhidden
          · exact absurd (List.prefix_append _ _) hunmarked
          · rwa [List.append_cancel_left hspaces]
      · rw [if_neg fun h => hmark ((marked_iff hvisible).mp h)]
        exact iff_of_true rfl (.inr (.inl hmark))

/-- There is no token in the first authorization header in the four cases, and in no other. -/
theorem bearer_token_eq_none_iff : bearerToken? headers = none ↔ LacksBearer headers := by
  constructor
  · intro h
    cases hvalue : (valuesOf headers "authorization").head? with
    | none => exact .absent (values_eq_nil_iff.mp (List.head?_eq_none_iff.mp hvalue))
    | some value =>
        have hfirst := first_header_iff.mpr hvalue
        rcases (bearer_token_eq_none_of_first hfirst).mp h with
          hhidden | hmark | ⟨spaces, rfl, hspaces⟩
        · exact .unreadable value hfirst hhidden
        · exact .unmarked value hfirst hmark
        · exact .blank spaces hfirst hspaces
  · intro h
    cases h with
    | absent habsent =>
        rw [bearerToken?, values_eq_nil_iff.mpr habsent]
        rfl
    | unreadable value hfirst hhidden =>
        exact (bearer_token_eq_none_of_first hfirst).mpr (.inl hhidden)
    | unmarked value hfirst hmark =>
        exact (bearer_token_eq_none_of_first hfirst).mpr (.inr (.inl hmark))
    | blank spaces hfirst hspaces =>
        exact (bearer_token_eq_none_of_first hfirst).mpr (.inr (.inr ⟨spaces, rfl, hspaces⟩))

end Bearer

/-! ## Tokens in cookies -/

/-- The pieces of the cookie headers that can be read, in their order. A semicolon ends a piece. -/
inductive CookiePieces : List (String × List UInt8) → List (List Char) → Prop where
  | none : CookiePieces [] []
  | other (header : String × List UInt8) (headers : List (String × List UInt8))
      (pieces : List (List Char)) :
      header.1 ≠ "cookie" → CookiePieces headers pieces → CookiePieces (header :: headers) pieces
  | unreadable (value : List UInt8) (headers : List (String × List UInt8))
      (pieces : List (List Char)) :
      (∃ b ∈ value, ¬IsVisible b) → CookiePieces headers pieces →
      CookiePieces (("cookie", value) :: headers) pieces
  | readable (value : List UInt8) (headers : List (String × List UInt8))
      (own pieces : List (List Char)) :
      (∀ b ∈ value, IsVisible b) → own ≠ [] → (∀ piece ∈ own, ';' ∉ piece) →
      [';'].intercalate own = value.map character → CookiePieces headers pieces →
      CookiePieces (("cookie", value) :: headers) (own ++ pieces)

/-- A piece is a pair of a name and a value, with blanks around. The name ends at the first equality
sign. -/
def IsPair (piece name value : List Char) : Prop :=
  strip piece = name ++ '=' :: value ∧ '=' ∉ name

/-- The first pair with the name of the session cookie has this value. -/
inductive FirstNamed (pieces : List (List Char)) (value : List Char) : Prop where
  | intro (before : List (List Char)) (piece : List Char) (later : List (List Char)) :
      pieces = before ++ piece :: later →
      (∀ other ∈ before, ∀ value, ¬IsPair other cookieName.toList value) →
      IsPair piece cookieName.toList value → FirstNamed pieces value

section Cookies

variable {headers : List (String × List UInt8)} {pieces : List (List Char)}

/-- The pieces are determined by the headers. -/
theorem cookie_pieces_iff :
    CookiePieces headers pieces ↔
      pieces = ((valuesOf headers "cookie").filterMap visibleText?).flatMap (split ';') := by
  constructor
  · intro h
    induction h with
    | none => rfl
    | other header headers pieces hname _ ih =>
        rw [valuesOf, List.filter_cons_of_neg (by simpa using hname)]
        exact ih
    | unreadable value headers pieces hhidden _ ih =>
        rw [valuesOf, List.filter_cons_of_pos (by simp), List.map_cons,
          List.filterMap_cons_none (visible_text_eq_none_iff.mpr hhidden)]
        exact ih
    | readable value headers own pieces hvisible hne hown hjoined _ ih =>
        have hread := visible_text_eq_some_iff.mpr ⟨hvisible, rfl⟩
        rw [valuesOf, List.filter_cons_of_pos (by simp), List.map_cons,
          List.filterMap_cons_some hread, List.flatMap_cons,
          Text.split_eq_iff.mpr ⟨hne, hown, hjoined⟩, ih]
        rfl
  · rintro rfl
    induction headers with
    | nil => exact .none
    | cons header headers ih =>
        obtain ⟨name, value⟩ := header
        by_cases hname : name = "cookie"
        · subst hname
          rw [valuesOf, List.filter_cons_of_pos (by simp), List.map_cons]
          cases hread : visibleText? value with
          | none =>
              rw [List.filterMap_cons_none hread]
              exact .unreadable value headers _ (visible_text_eq_none_iff.mp hread) ih
          | some cs =>
              obtain ⟨hvisible, rfl⟩ := visible_text_eq_some_iff.mp hread
              obtain ⟨hne, hown, hjoined⟩ :=
                Text.split_eq_iff.mp (rfl : split ';' (value.map character) = _)
              rw [List.filterMap_cons_some hread, List.flatMap_cons]
              exact .readable value headers _ _ hvisible hne hown hjoined ih
        · rw [valuesOf, List.filter_cons_of_neg (by simpa using hname)]
          exact .other (name, value) headers _ hname ih

theorem pair_iff {piece name value : List Char} :
    IsPair piece name value ↔ Text.splitFirst? '=' (strip piece) = some (name, value) :=
  Text.split_first_eq_some_iff.symm

/-- A piece is a pair with a name exactly if that name is looked for and found. -/
theorem named_iff {piece name : List Char} :
    ((Text.splitFirst? '=' (strip piece)).any (·.1 == name)) = true ↔
      ∃ value, IsPair piece name value := by
  rw [Option.any_eq_true]
  constructor
  · rintro ⟨⟨found, value⟩, hpair, hname⟩
    obtain rfl : found = name := beq_iff_eq.mp hname
    exact ⟨value, pair_iff.mpr hpair⟩
  · rintro ⟨value, hpair⟩
    exact ⟨(name, value), pair_iff.mp hpair, beq_self_eq_true name⟩

/-- The first pair with the right name is the one that is looked for. -/
theorem first_named_iff {found : List Char × List Char} :
    (pieces.filterMap fun piece => Text.splitFirst? '=' (strip piece)).find?
        (·.1 == cookieName.toList) = some found ↔
      found.1 = cookieName.toList ∧ FirstNamed pieces found.2 := by
  rw [List.find?_filterMap, Option.bind_eq_some_iff]
  simp only [List.find?_eq_some_iff_append, Bool.not_eq_true', ← Bool.not_eq_true, named_iff]
  constructor
  · rintro ⟨piece, ⟨⟨value, hnamed⟩, before, later, hpieces, hbefore⟩, hfound⟩
    rw [pair_iff.mp hnamed] at hfound
    cases hfound
    refine ⟨rfl, before, piece, later, hpieces, fun other hother value hpair => ?_, hnamed⟩
    exact hbefore other hother ⟨value, hpair⟩
  · obtain ⟨name, value⟩ := found
    rintro ⟨rfl, before, piece, later, hpieces, hbefore, hnamed⟩
    refine ⟨piece, ⟨⟨value, hnamed⟩, before, later, hpieces, ?_⟩, pair_iff.mp hnamed⟩
    exact fun other hother ⟨value, hpair⟩ => hbefore other hother value hpair

/-- The token of the cookies is what is left of the value of the first pair with the right name. -/
theorem cookie_token_eq (hpieces : CookiePieces headers pieces) :
    cookieToken? headers =
      ((pieces.filterMap fun piece => Text.splitFirst? '=' (strip piece)).find?
        (·.1 == cookieName.toList)).bind fun found => nonEmpty? (strip found.2) := by
  rw [cookie_pieces_iff.mp hpieces, List.filterMap_flatMap]
  rfl

/-- The token of the cookies is the stripped value of the first pair with the right name. -/
theorem cookie_token_eq_some_iff (hpieces : CookiePieces headers pieces) {token : String}
    (htoken : token ≠ "") :
    cookieToken? headers = some token ↔
      ∃ value, FirstNamed pieces value ∧ strip value = token.toList := by
  simp only [cookie_token_eq hpieces, Option.bind_eq_some_iff, first_named_iff,
    non_empty_eq_some_iff htoken]
  constructor
  · rintro ⟨⟨name, value⟩, ⟨-, hfirst⟩, hstrip⟩
    exact ⟨value, hfirst, hstrip⟩
  · rintro ⟨value, hfirst, hstrip⟩
    exact ⟨(cookieName.toList, value), ⟨rfl, hfirst⟩, hstrip⟩

/-- There is no token in the cookies if there is no pair with the right name, or if the value of the
first one is blank. -/
theorem cookie_token_eq_none_iff (hpieces : CookiePieces headers pieces) :
    cookieToken? headers = none ↔ ∀ value, FirstNamed pieces value → strip value = [] := by
  simp only [cookie_token_eq hpieces, Option.bind_eq_none_iff, first_named_iff,
    non_empty_eq_none_iff]
  constructor
  · exact fun h value hfirst => h (cookieName.toList, value) ⟨rfl, hfirst⟩
  · exact fun h found ⟨_, hfirst⟩ => h found.2 hfirst

/-- Without a token in the authorization header, the token is that of the cookies. -/
theorem token_of_lacks_bearer (h : LacksBearer headers) :
    token? headers = cookieToken? headers := by
  rw [token?, bearer_token_eq_none_iff.mpr h]
  rfl

end Cookies

/-! ## What a client sends back -/

/-- A cookie that a client keeps. -/
structure Cookie where
  name : String
  value : String
deriving DecidableEq

namespace Cookie

/-- The cookie as it is sent. -/
def text (c : Cookie) : String := c.name ++ "=" ++ c.value

/-- The cookie with the token of a session. -/
def session (token : String) : Cookie := ⟨cookieName, token⟩

/-- Several cookies as they are sent in one header. -/
def joined (jar : List Cookie) : String := "; ".intercalate (jar.map text)

/-- A header gives the cookie to a client: the name ends at the first equality sign, and the value
before the first semicolon. -/
def IsGivenBy (c : Cookie) (header : String) : Prop :=
  header.toList.takeWhile (· != ';') = c.text.toList ∧ '=' ∉ c.name.toList

/-- A cookie with another name, whatever blanks are around the name. -/
structure IsOther (c : Cookie) (name : String) : Prop where
  name_ne : Text.trim c.name ≠ name
  name_ends : '=' ∉ c.name.toList
  text_ends : ';' ∉ c.text.toList

/-- The cookie headers have a cookie in one that can be read, and no other cookie has its name. -/
inductive IsSentBack (c : Cookie) (headers : List (String × List UInt8)) : Prop where
  | intro (jars : List (List Cookie)) (jar : List Cookie) :
      valuesOf headers "cookie" = jars.map (fun jar => utf8 (joined jar)) →
      (∀ jar ∈ jars, ∀ other ∈ jar, other = c ∨ other.IsOther c.name) →
      jar ∈ jars → c ∈ jar → IsPrintableText (joined jar) → IsSentBack c headers

theorem text_to_list (c : Cookie) : c.text.toList = c.name.toList ++ '=' :: c.value.toList := by
  rw [text, String.toList_append, String.toList_append, List.append_assoc]
  rfl

theorem session_text_to_list (token : String) :
    (session token).text.toList = cookieName.toList ++ '=' :: token.toList :=
  text_to_list (session token)

/-- A blank before a text makes no difference to its pieces once they are stripped. -/
theorem map_strip_split_blank (cs : List Char) :
    (split ';' (' ' :: cs)).map strip = (split ';' cs).map strip := by
  have hblank (cs : List Char) : strip (' ' :: cs) = strip cs := by
    have hfront : [' '].all Text.isBlank = true := rfl
    have hback : ([] : List Char).all Text.isBlank = true := rfl
    have hsurrounded := Text.strip_surrounded hfront hback cs
    rwa [List.append_nil] at hsurrounded
  rw [split, if_neg (by decide)]
  cases hpieces : split ';' cs with
  | nil => exact absurd hpieces (Text.split_eq_iff.mp rfl).1
  | cons piece pieces => rw [List.map_cons, List.map_cons, hblank]

/-- The pieces of a header are the cookies in it, once they are stripped. -/
theorem map_strip_split_joined {jar : List Cookie} (hne : jar ≠ [])
    (hends : ∀ c ∈ jar, ';' ∉ c.text.toList) :
    (split ';' (joined jar).toList).map strip = jar.map fun c => strip c.text.toList := by
  induction jar with
  | nil => exact absurd rfl hne
  | cons c jar ih =>
      have hfirst := hends c List.mem_cons_self
      cases jar with
      | nil =>
          rw [joined, List.map_singleton, String.intercalate_singleton,
            Text.split_of_not_mem hfirst]
          rfl
      | cons d jar =>
          have hjoined : (joined (c :: d :: jar)).toList =
              c.text.toList ++ ';' :: ' ' :: (joined (d :: jar)).toList := by
            rw [joined, List.map_cons, List.map_cons, String.intercalate_cons_cons,
              String.toList_append, String.toList_append, List.append_assoc]
            rfl
          rw [hjoined, Text.split_append hfirst, List.map_cons, map_strip_split_blank,
            ih (List.cons_ne_nil d jar) fun e he => hends e (List.mem_cons_of_mem c he),
            List.map_cons (l := d :: jar)]

/-- A cookie with another name is no pair with that name. -/
theorem IsOther.not_pair {c : Cookie} {name : String} (h : c.IsOther name)
    (hname : Text.trim name = name) {piece value : List Char}
    (hpiece : strip piece = strip c.text.toList) : ¬IsPair piece name.toList value := by
  rintro ⟨hpair, hends⟩
  -- The name of the cookie ends where that of the pair does, and has only blanks more.
  obtain ⟨before, later, hbefore, -, hcut⟩ := Text.strip_decompose c.text.toList
  have htext : c.text.toList = (before ++ name.toList) ++ '=' :: (value ++ later) := by
    rw [hcut, ← hpiece, hpair]
    simp
  have hfirst : '=' ∉ before ++ name.toList := by
    rw [List.mem_append, not_or]
    refine ⟨fun hmem => ?_, hends⟩
    exact absurd (List.all_eq_true.mp hbefore '=' hmem) (by decide)
  have hpieces := Text.split_first_eq_some_iff.mpr ⟨htext, hfirst⟩
  rw [Text.split_first_eq_some_iff.mpr ⟨text_to_list c, h.name_ends⟩] at hpieces
  have hlonger : c.name.toList = before ++ name.toList := by
    injection hpieces with hpieces
    exact congrArg Prod.fst hpieces
  have hback : ([] : List Char).all Text.isBlank = true := rfl
  have htrimmed := Text.strip_surrounded hbefore hback name.toList
  rw [List.append_nil, ← hlonger] at htrimmed
  refine h.name_ne ?_
  rw [Text.trim, htrimmed]
  exact hname

/-- There are no blanks in the cookie of a session. -/
theorem strip_session {token : String} (htoken : IsToken token) :
    strip (session token).text.toList = cookieName.toList ++ '=' :: token.toList := by
  have hname : cookieName.toList.all (!Text.isBlank ·) = true := by decide +kernel
  have hvalue : token.toList.all (!Text.isBlank ·) = true :=
    List.all_eq_true.mpr fun c hc => by rw [(htoken.chars c hc).2.1]; rfl
  rw [session_text_to_list]
  refine Text.strip_of_no_blanks ?_
  rw [List.all_append, List.all_cons, hname, hvalue]
  rfl

/-- There is no semicolon in the cookie of a session. -/
theorem session_ends {token : String} (htoken : IsToken token) :
    ';' ∉ (session token).text.toList := by
  rw [session_text_to_list, List.mem_append, List.mem_cons, not_or, not_or]
  exact ⟨by decide +kernel, by decide, fun hmem => (htoken.chars ';' hmem).2.2 rfl⟩

/-- The name of the session cookie ends before the token. -/
theorem session_name_ends : '=' ∉ cookieName.toList := by decide +kernel

/-- A client that is given the cookie of a session keeps its name and the token. -/
theorem is_given_by_iff {token : String} (htoken : IsToken token) {c : Cookie} :
    c.IsGivenBy (cookieValue token) ↔ c = session token := by
  have hvalue : (cookieValue token).toList =
      (session token).text.toList ++ "; HttpOnly; Path=/".toList := by
    rw [cookieValue, String.toList_append]
    rfl
  have hkept : (cookieValue token).toList.takeWhile (· != ';') = (session token).text.toList := by
    have hall : ∀ c ∈ (session token).text.toList, (c != ';') = true := fun c hc =>
      bne_iff_ne.mpr fun hsemicolon => session_ends htoken (hsemicolon ▸ hc)
    rw [hvalue, List.takeWhile_append_of_pos hall]
    exact List.append_nil _
  rw [IsGivenBy, hkept]
  constructor
  · rintro ⟨htext, hends⟩
    rw [session_text_to_list, text_to_list] at htext
    have hpieces := Text.split_first_eq_some_iff.mpr ⟨htext, hends⟩
    rw [Text.split_first_eq_some_iff.mpr ⟨rfl, session_name_ends⟩] at hpieces
    simp only [Option.some.injEq, Prod.mk.injEq, String.toList_inj] at hpieces
    obtain ⟨name, value⟩ := c
    obtain ⟨rfl, rfl⟩ := hpieces
    rfl
  · rintro rfl
    exact ⟨rfl, session_name_ends⟩

/-- There is no semicolon in the cookie of a session and others. -/
theorem ends_of_others {token : String} (htoken : IsToken token) {jar : List Cookie}
    (hothers : ∀ c ∈ jar, c = session token ∨ c.IsOther cookieName) :
    ∀ c ∈ jar, ';' ∉ c.text.toList := by
  intro c hc
  rcases hothers c hc with rfl | hother
  · exact session_ends htoken
  · exact hother.text_ends

/-- The pieces of a header with the cookie of a session and others: only the session cookie is a
pair with its name. -/
theorem pair_of_joined {token : String} (htoken : IsToken token) {jar : List Cookie}
    (hothers : ∀ c ∈ jar, c = session token ∨ c.IsOther cookieName) {piece value : List Char}
    (hpiece : piece ∈ split ';' (joined jar).toList)
    (hpair : IsPair piece cookieName.toList value) : value = token.toList := by
  by_cases hne : jar = []
  · subst hne
    obtain rfl := List.mem_singleton.mp hpiece
    cases (List.append_ne_nil_of_right_ne_nil _ (List.cons_ne_nil _ _)) hpair.1.symm
  have hmem := List.mem_map_of_mem (f := strip) hpiece
  rw [map_strip_split_joined hne (ends_of_others htoken hothers), List.mem_map] at hmem
  obtain ⟨c, hc, hstrip⟩ := hmem
  rcases hothers c hc with rfl | hother
  · have hsame := hpair.1
    rw [← hstrip, strip_session htoken] at hsame
    exact (List.cons_inj_right _).mp (List.append_cancel_left hsame).symm
  · have htrim : Text.trim cookieName = cookieName := by decide +kernel
    exact (hother.not_pair htrim hstrip.symm hpair).elim

/-- In a header with the cookie of a session, one of the pieces is the pair with the token. -/
theorem exists_pair_of_joined {token : String} (htoken : IsToken token) {jar : List Cookie}
    (hothers : ∀ c ∈ jar, c = session token ∨ c.IsOther cookieName) (hmem : session token ∈ jar) :
    ∃ piece ∈ split ';' (joined jar).toList, IsPair piece cookieName.toList token.toList := by
  have hpieces :=
    map_strip_split_joined (List.ne_nil_of_mem hmem) (ends_of_others htoken hothers)
  have htext : strip (session token).text.toList ∈ (split ';' (joined jar).toList).map strip :=
    hpieces ▸ List.mem_map_of_mem hmem
  obtain ⟨piece, hpiece, hstrip⟩ := List.mem_map.mp htext
  exact ⟨piece, hpiece, hstrip.trans (strip_session htoken), session_name_ends⟩

end Cookie

/-- If all pairs with the right name have the same value, then the first one has it. -/
theorem first_named_of_all {pieces : List (List Char)} {piece value : List Char}
    (hpiece : piece ∈ pieces) (hpair : IsPair piece cookieName.toList value)
    (hall : ∀ piece ∈ pieces, ∀ other, IsPair piece cookieName.toList other → other = value) :
    FirstNamed pieces value := by
  induction pieces with
  | nil => cases hpiece
  | cons first pieces ih =>
      by_cases hfirst : ∃ other, IsPair first cookieName.toList other
      · obtain ⟨other, hfirst⟩ := hfirst
        obtain rfl := hall first List.mem_cons_self other hfirst
        exact .intro [] first pieces rfl nofun hfirst
      · have hlater : piece ∈ pieces := by
          rcases List.mem_cons.mp hpiece with rfl | hlater
          · exact absurd ⟨value, hpair⟩ hfirst
          · exact hlater
        obtain ⟨before, named, later, rfl, hbefore, hnamed⟩ :=
          ih hlater fun piece h => hall piece (List.mem_cons_of_mem _ h)
        refine .intro (first :: before) named later rfl (fun other hother value hvalue => ?_) hnamed
        rcases List.mem_cons.mp hother with rfl | hother
        · exact hfirst ⟨value, hvalue⟩
        · exact hbefore other hother value hvalue

/-- The token of a session is found in the cookie that a client sends back. -/
theorem cookie_sent_back {headers : List (String × List UInt8)} {token : String}
    (htoken : IsToken token) (hlacks : LacksBearer headers)
    (hsent : (Cookie.session token).IsSentBack headers) : token? headers = some token := by
  obtain ⟨jars, jar, hjars, hothers, hjar, hmem, hprintable⟩ := hsent
  have hpieces : CookiePieces headers _ := cookie_pieces_iff.mpr rfl
  rw [token_of_lacks_bearer hlacks, cookie_token_eq_some_iff hpieces htoken.1, hjars]
  obtain ⟨piece, hpiece, hpair⟩ := Cookie.exists_pair_of_joined htoken (hothers jar hjar) hmem
  refine ⟨token.toList, first_named_of_all ?_ hpair fun other hother value hvalue => ?_,
    htoken.strip_eq⟩
  · have hread := visible_text_utf8_iff.mpr ⟨hprintable, rfl⟩
    exact List.mem_flatMap.mpr
      ⟨_, List.mem_filterMap.mpr ⟨_, List.mem_map_of_mem hjar, hread⟩, hpiece⟩
  · obtain ⟨cs, hcs, hother⟩ := List.mem_flatMap.mp hother
    obtain ⟨bytes, hbytes, hread⟩ := List.mem_filterMap.mp hcs
    obtain ⟨own, hown, rfl⟩ := List.mem_map.mp hbytes
    obtain ⟨-, rfl⟩ := visible_text_utf8_iff.mp hread
    exact Cookie.pair_of_joined htoken (hothers own hown) hother hvalue

/-- Every request with a token: the token is that of the first authorization header, which may have
spaces and tabs around it. If that header has none, it is that of the first cookie with the right
name in all the cookie headers that can be read, and there is none if there is no such cookie or if
it is blank. So a client that got a token from the service may send the header back that it got, or
the cookie among others. -/
theorem session_token_found (headers : List (String × List UInt8)) (token : String)
    (htoken : IsToken token) :
    (∀ before later, AreSpaces before → AreSpaces later →
      FirstHeader "authorization" (utf8 "Bearer " ++ before ++ utf8 token ++ later) headers →
      token? headers = some token) ∧
    (LacksBearer headers →
      ∃ pieces, (∀ other, CookiePieces headers other ↔ other = pieces) ∧
        (token? headers = some token ↔
          ∃ value, FirstNamed pieces value ∧ strip value = token.toList) ∧
        (token? headers = none ↔ ∀ value, FirstNamed pieces value → strip value = [])) ∧
    (Endpoint.sessionResponse token).headers = [("content-type", "application/json"),
      ("authorization", bearerValue token), ("set-cookie", cookieValue token)] ∧
    (FirstHeader "authorization" (utf8 (bearerValue token)) headers →
      token? headers = some token) ∧
    (∀ c : Cookie, c.IsGivenBy (cookieValue token) ↔ c = .session token) ∧
    (LacksBearer headers → (Cookie.session token).IsSentBack headers →
      token? headers = some token) := by
  have hbearer (before later : List UInt8) (hbefore : AreSpaces before) (hlater : AreSpaces later)
      (hfirst : FirstHeader "authorization" (utf8 "Bearer " ++ before ++ utf8 token ++ later)
        headers) : token? headers = some token := by
    rw [token?, bearer_token htoken hbefore hlater hfirst]
    rfl
  refine ⟨hbearer, fun hlacks => ?_, rfl, fun hfirst => ?_,
    fun c => Cookie.is_given_by_iff htoken, cookie_sent_back htoken⟩
  · refine ⟨_, fun other => cookie_pieces_iff, ?_⟩
    rw [token_of_lacks_bearer hlacks]
    exact ⟨cookie_token_eq_some_iff (cookie_pieces_iff.mpr rfl) htoken.1,
      cookie_token_eq_none_iff (cookie_pieces_iff.mpr rfl)⟩
  · refine hbearer [] [] nofun nofun ?_
    have hbytes : utf8 (bearerValue token) = utf8 "Bearer " ++ [] ++ utf8 token ++ [] := by
      rw [bearerValue, Text.utf8_of_chars, String.toList_append, Text.bytes_append,
        ← Text.utf8_of_chars, ← Text.utf8_of_chars, List.append_nil, List.append_nil]
    rwa [hbytes] at hfirst

/-- The cookie of a session comes back with others, and nothing stands behind the mark. -/
theorem session_token_found_among_cookies :
    let headers := [("cookie", utf8 "theme=dark; auth_token=a.b-c"),
      ("authorization", utf8 "Bearer "), ("cookie", utf8 "lang=en")]
    IsToken "a.b-c" ∧ LacksBearer headers ∧ (Cookie.session "a.b-c").IsSentBack headers ∧
      token? headers = some "a.b-c" := by
  intro headers
  have htoken : IsToken "a.b-c" := by decide +kernel
  have hlacks : LacksBearer headers := by
    refine .blank [] ?_ nofun
    rw [List.append_nil]
    exact .intro [headers[0]] [headers[2]] (by decide +kernel)
  have htheme : Cookie.IsOther ⟨"theme", "dark"⟩ cookieName :=
    ⟨by decide +kernel, by decide +kernel, by decide +kernel⟩
  have hlang : Cookie.IsOther ⟨"lang", "en"⟩ cookieName :=
    ⟨by decide +kernel, by decide +kernel, by decide +kernel⟩
  have hsent : (Cookie.session "a.b-c").IsSentBack headers := by
    refine .intro [[⟨"theme", "dark"⟩, .session "a.b-c"], [⟨"lang", "en"⟩]] _
      (by decide +kernel) ?_ List.mem_cons_self (by decide +kernel) (by decide +kernel)
    refine List.forall_mem_cons.mpr ⟨List.forall_mem_cons.mpr ⟨.inr htheme, ?_⟩, ?_⟩
    · exact List.forall_mem_singleton.mpr (.inl rfl)
    · exact List.forall_mem_singleton.mpr (List.forall_mem_singleton.mpr (.inr hlang))
  exact ⟨htoken, hlacks, hsent,
    (session_token_found headers "a.b-c" htoken).2.2.2.2.2 hlacks hsent⟩

end Rewards.Http
