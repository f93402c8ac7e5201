import Rewards.Accrual.Client
import Rewards.Config.Basic
import Rewards.Proofs.Order.Numbers
import Rewards.Proofs.Url.Extensions

/-!
# The addresses of orders

The address of an order is made from the characters of the address of the accrual system, and a
configuration is checked by reading this address. The two agree if the address `IsBase`: it has no
query and no fragment, no blank at its end, and no empty segment at the end of the paths under it.
Of the addresses that are accepted these are all that lead to the orders, `orders_reached`.
-/

namespace Rewards

namespace Accrual

open Url (withoutSlashes)

/-- An address without its trailing slashes, and these. -/
theorem trim_slashes_append (address : String) :
    ∃ count, address.toList = (trimSlashes address).toList ++ List.replicate count '/' := by
  have hslashes : address.toList.rtakeWhile (· == '/') =
      List.replicate (address.toList.rtakeWhile (· == '/')).length '/' :=
    List.eq_replicate_iff.mpr ⟨rfl, fun c hc => by simpa using List.mem_rtakeWhile_imp hc⟩
  refine ⟨(address.toList.rtakeWhile (· == '/')).length, ?_⟩
  rw [← hslashes, trimSlashes, String.toList_ofList]
  exact List.rdropWhile_append_rtakeWhile.symm

/-- What is put after an address for an order. -/
def orderPath (number : OrderNumber) : List Char := "/api/orders/".toList ++ number.text.toList

/-- The text is the address of the order under another address: it has the same scheme, host and
port, no query and no fragment, and its path is that of the other one, without slashes at the end,
followed by the path of the order. -/
def Reaches (url : Url) (number : OrderNumber) (text : String) : Prop :=
  ∃ u, Url.read text = .ok u ∧ u.scheme = url.scheme ∧ u.host = url.host ∧ u.port = url.port ∧
    u.query = none ∧ u.fragment = none ∧ u.path = withoutSlashes url.path ++ orderPath number

/-- An address that others can be put under. -/
structure IsBase (address : String) (url : Url) : Prop where
  query : url.query = none
  fragment : url.fragment = none
  noBlank : Url.NoBlankEnd address
  noEmptySegment : ∀ under, Url.read (trimSlashes address ++ "/") = .ok under →
    ¬ ['/', '/'] <:+ under.path

/-- The path of an order is plain. -/
theorem order_path_plain (number : OrderNumber) :
    ∃ more, orderPath number = '/' :: more ∧ Url.IsPlainPath more := by
  refine ⟨"api/orders/".toList ++ number.text.toList, rfl, fun c hc => ?_⟩
  have hwords : "api/orders/".toList.all (fun c => c.isAlphanum || c == '/') = true := by decide
  rcases List.mem_append.mp hc with hc | hc
  · simpa using List.all_eq_true.mp hwords c hc
  · rw [Char.isAlphanum, List.all_eq_true.mp number.is_digits.digits c hc, Bool.or_true]
    exact .inl rfl

/-- The address of an order goes on with its path. -/
theorem order_url_chars (address : String) (number : OrderNumber) :
    (orderUrl address number).toList = (trimSlashes address).toList ++ orderPath number := by
  rw [orderUrl, String.toList_append, String.toList_append, List.append_assoc]
  rfl

/-- No path goes on with two slashes if it has none at its end. -/
theorem without_slashes_eq_iff (cs : List Char) :
    withoutSlashes cs = cs ↔ ¬ ['/', '/'] <:+ cs ++ ['/'] := by
  rcases List.eq_nil_or_concat cs with rfl | ⟨start, c, rfl⟩
  · exact ⟨fun _ => by decide, fun _ => rfl⟩
  · have hsuffix : ['/', '/'] <:+ start ++ [c] ++ ['/'] ↔ c = '/' := by
      rw [← List.reverse_prefix]
      simp [eq_comm]
    rw [List.concat_eq_append, hsuffix, withoutSlashes, List.rdropWhile_eq_self_iff]
    simp

section Accepted

variable {address : String} {url : Url} (hread : Url.read address = .ok url)
  (hspecial : Url.isSpecial url.scheme = true)
include hread hspecial

/-- The address of an order reaches it from a base. -/
theorem reaches_of_base (hbase : IsBase address url) (number : OrderNumber) :
    Reaches url number (orderUrl address number) := by
  obtain ⟨count, htrim⟩ := trim_slashes_append address
  obtain ⟨under, hpath, hunder⟩ :=
    Url.read_under htrim hread hspecial hbase.noBlank hbase.query hbase.fragment
  obtain ⟨more, horder, hmore⟩ := order_path_plain number
  have hnumber :=
    hunder (orderUrl address number) more (horder ▸ order_url_chars address number) hmore
  have hslash := hunder (trimSlashes address ++ "/") [] (String.toList_append ..) nofun
  have hsame := (without_slashes_eq_iff under).mpr (hbase.noEmptySegment _ hslash)
  refine ⟨_, hnumber, rfl, rfl, rfl, hbase.query, hbase.fragment, ?_⟩
  rw [hpath, hsame, horder]

/-- It reaches it only from a base. -/
theorem base_of_reaches {number : OrderNumber} (h : Reaches url number (orderUrl address number)) :
    IsBase address url := by
  obtain ⟨u, hu, -, -, -, hquery, hfragment, hreached⟩ := h
  obtain ⟨count, htrim⟩ := trim_slashes_append address
  obtain ⟨more, horder, hmore⟩ := order_path_plain number
  have htext := horder ▸ order_url_chars address number
  rw [horder] at hreached
  by_cases hend : Url.NoBlankEnd address
  · have hnone := Url.none_of_extended htrim hread hspecial hend htext hmore hu hquery hfragment
    obtain ⟨under, hpath, hunder⟩ := Url.read_under htrim hread hspecial hend hnone.1 hnone.2
    have hslash := hunder (trimSlashes address ++ "/") [] (String.toList_append ..) nofun
    refine ⟨hnone.1, hnone.2, hend, fun read hunderRead => ?_⟩
    cases hslash.symm.trans hunderRead
    rw [hunder _ more htext hmore] at hu
    cases hu
    have hsame := List.append_cancel_right hreached
    rw [hpath] at hsame
    exact (without_slashes_eq_iff under).mp hsame.symm
  · exact absurd hreached
      (Url.path_ne_of_blank htrim hread hspecial hend htext hmore hu hquery hfragment)

end Accepted

/-- The address of the accrual system in a configuration that can be used is one of the web. The
addresses of orders that are made from it lead to the orders if others can be put under it, and
only then. -/
theorem orders_reached (c : Config) (h : c.check = .ok ()) :
    ∃ url, Url.read c.accrualSystemAddress = .ok url ∧
      (url.scheme = "http" ∨ url.scheme = "https") ∧
      ∀ number, Reaches url number (orderUrl c.accrualSystemAddress number) ↔
        IsBase c.accrualSystemAddress url := by
  unfold Config.check at h
  split_ifs at h
  unfold Config.checkAccrualAddress at h
  split at h
  · cases h
  rename_i url hread
  split at h
  · rename_i hscheme
    have hspecial : Url.isSpecial url.scheme = true := by
      rcases hscheme with hscheme | hscheme <;>
      · rw [hscheme]
        decide
    exact ⟨url, hread, hscheme, fun number =>
      ⟨base_of_reaches hread hspecial, fun hbase => reaches_of_base hread hspecial hbase number⟩⟩
  · cases h

/-- Slashes at the end of an address and a path before them do no harm. -/
theorem orders_reached_under_path :
    ∃ url, Url.read "http://localhost:8083/v1//" = .ok url ∧
      IsBase "http://localhost:8083/v1//" url ∧
      Reaches url ⟨"42", by decide +kernel⟩
        (orderUrl "http://localhost:8083/v1//" ⟨"42", by decide +kernel⟩) := by
  obtain ⟨url, hread, -, hreached⟩ := orders_reached
    ⟨"localhost:8081", "info", "secret", none, "http://localhost:8083/v1//", 3, 10, 10, 100, 20⟩
    (by decide +kernel)
  have hurl : Url.read "http://localhost:8083/v1//" = .ok ⟨"http", none,
      some (.domain "localhost".toList), some 8083, "/v1//".toList, none, none⟩ := by decide +kernel
  have hbase : IsBase "http://localhost:8083/v1//" url := by
    refine (hreached ⟨"125", by decide +kernel⟩).mp ⟨⟨"http", none,
      some (.domain "localhost".toList), some 8083, "/v1/api/orders/125".toList, none, none⟩,
      by decide +kernel, ?_⟩
    cases hurl.symm.trans hread
    exact ⟨rfl, rfl, rfl, rfl, rfl, by decide +kernel⟩
  exact ⟨url, hread, hbase, (hreached _).mpr hbase⟩

/-- A blank at the end of an address is accepted, and then no address of an order can be read. A
query is accepted too, and then the path of an order becomes part of it. -/
theorem orders_missed :
    (⟨"localhost:8081", "info", "secret", none, "http://localhost:8083 ", 3, 10, 10, 100, 20⟩ :
      Config).check = .ok () ∧
    Url.read (orderUrl "http://localhost:8083 " ⟨"125", by decide +kernel⟩) = .error .invalidPort ∧
    (⟨"localhost:8081", "info", "secret", none, "http://localhost:8083?x=1", 3, 10, 10, 100, 20⟩ :
      Config).check = .ok () ∧
    Url.read (orderUrl "http://localhost:8083?x=1" ⟨"125", by decide +kernel⟩) = .ok ⟨"http", none,
      some (.domain "localhost".toList), some 8083, "/".toList, some "x=1/api/orders/125".toList,
      none⟩ := by
  decide +kernel

end Accrual

end Rewards
