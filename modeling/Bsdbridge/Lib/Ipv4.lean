import Bsdbridge.Lib.Except
import Bsdbridge.Lib.Text

/-!
# IPv4 networks as text

The IPv4 half of the modelled language's `ipaddress.ip_network`: an address, and behind a slash a
prefix length, a netmask or a hostmask. What it refuses is `none`.

An address is a number below 2^32 and a network the number of its first address with a prefix
length. A strict reading refuses host bits and the other one clears them, so what is read is
`Normal`: printing it and reading it again gives it back. Octets with a leading zero are refused,
as the library refuses them.
-/

set_option autoImplicit false

namespace Ipv4

/-- The value of some ASCII digits. -/
def decimal (cs : List Char) : Nat := cs.foldl (fun n c => 10 * n + (c.toNat - 48)) 0

/-- One octet: one to three digits, no leading zero, at most 255. -/
def readOctet (s : String) : Option Nat :=
  let cs := s.toList
  if cs = [] || !cs.all Char.isDigit || 3 < cs.length || (cs.length ≠ 1 && cs.head? = some '0')
  then none
  else if decimal cs ≤ 255 then some (decimal cs) else none

/-- Four octets, as the number they spell. -/
def readAddress (s : String) : Option Nat :=
  match (Text.splitOn s '.').mapM readOctet with
  | some [a, b, c, d] => some (((a * 256 + b) * 256 + c) * 256 + d)
  | _ => none

/-- Four octets as text. -/
def dotted (a b c d : Nat) : String :=
  toString a ++ "." ++ toString b ++ "." ++ toString c ++ "." ++ toString d

/-- An octet of an address, the last one being the zeroth. -/
def octet (n i : Nat) : Nat := n / 256 ^ i % 256

/-- The address as text. -/
def showAddress (n : Nat) : String := dotted (octet n 3) (octet n 2) (octet n 1) (octet n 0)

/-- The netmask of a prefix length. -/
def mask (len : Nat) : Nat := 2 ^ 32 - 2 ^ (32 - len)

/-- The length of a netmask, or of a hostmask. -/
def lengthOfMask (m : Nat) : Option Nat :=
  ((List.range 33).find? fun len => mask len = m).orElse fun _ =>
    (List.range 33).find? fun len => mask len = 2 ^ 32 - 1 - m

/-- What stands behind the slash. -/
def readLength (s : String) : Option Nat :=
  let cs := s.toList
  if cs ≠ [] && cs.all Char.isDigit && decimal cs ≤ 32 then some (decimal cs)
  else (readAddress s).bind lengthOfMask

/-- A network: its first address, and its prefix length. -/
structure Network where
  address : Nat
  prefixlen : Nat
  deriving DecidableEq

/-- `ipaddress.ip_network(text, strict)`; a strict reading refuses host bits. -/
def readNetwork (strict : Bool) (s : String) : Option Network :=
  let make (n len : Nat) : Option Network :=
    let first := n - n % 2 ^ (32 - len)
    if strict && first ≠ n then none else some ⟨first, len⟩
  match Text.splitOn s '/' with
  | [a] => (readAddress a).bind (make · 32)
  | [a, l] => (readAddress a).bind fun n => (readLength l).bind (make n)
  | _ => none

/-- `network.network_address`, as text. -/
def Network.first (n : Network) : String := showAddress n.address

/-- `network.netmask`, as text. -/
def Network.netmask (n : Network) : String := showAddress (mask n.prefixlen)

/-- `str(network)`. -/
def Network.show (n : Network) : String := n.first ++ "/" ++ toString n.prefixlen

/-! ## What is printed is read back -/

/-- An address is spelled with digits and dots. -/
theorem not_mem_dotted {x : Char} (hd : x.isDigit = false) (hp : x ≠ '.') (a b c d : Nat) :
    x ∉ (dotted a b c d).toList := by
  have hnum : ∀ n : Nat, x ∉ (toString n).toList := fun n => Text.not_mem_toString_nat hd
  have hdot : x ∉ ".".toList := by simpa using hp
  unfold dotted
  simp only [String.toList_append, List.mem_append, not_or]
  exact ⟨⟨⟨⟨⟨⟨hnum a, hdot⟩, hnum b⟩, hdot⟩, hnum c⟩, hdot⟩, hnum d⟩

theorem not_mem_showAddress {x : Char} (hd : x.isDigit = false) (hp : x ≠ '.') (n : Nat) :
    x ∉ (showAddress n).toList := not_mem_dotted hd hp _ _ _ _

theorem octet_lt (n i : Nat) : octet n i < 256 := Nat.mod_lt _ (by decide)

theorem readOctet_toString {n : Nat} (h : n < 256) : readOctet (toString n) = some n := by
  revert n
  decide +kernel

theorem readAddress_dotted {a b c d : Nat} (ha : a < 256) (hb : b < 256) (hc : c < 256)
    (hd : d < 256) : readAddress (dotted a b c d) = some (((a * 256 + b) * 256 + c) * 256 + d) := by
  have hnum : ∀ n : Nat, '.' ∉ (toString n).toList := fun n => Text.not_mem_toString_nat (by decide)
  have hsplit : Text.splitOn (dotted a b c d) '.' =
      [toString a, toString b, toString c, toString d] := by
    have hassoc : dotted a b c d = toString a ++ String.singleton '.' ++
        (toString b ++ String.singleton '.' ++
          (toString c ++ String.singleton '.' ++ toString d)) := by
      unfold dotted
      simp only [String.append_assoc]
      rfl
    rw [hassoc, Text.splitOn_append (hnum a), Text.splitOn_append (hnum b),
      Text.splitOn_append (hnum c), Text.splitOn_none (hnum d)]
  unfold readAddress
  rw [hsplit]
  simp only [List.mapM_cons, List.mapM_nil, readOctet_toString ha, readOctet_toString hb,
    readOctet_toString hc, readOctet_toString hd, Option.pure_def, Option.bind_eq_bind,
    Option.bind_some]

/-- An address is read back from its text. -/
theorem readAddress_showAddress {n : Nat} (h : n < 2 ^ 32) :
    readAddress (showAddress n) = some n := by
  unfold showAddress
  rw [readAddress_dotted (octet_lt n 3) (octet_lt n 2) (octet_lt n 1) (octet_lt n 0)]
  unfold octet
  congr 1
  omega

theorem readOctet_lt {s : String} {n : Nat} (h : readOctet s = some n) : n < 256 := by
  unfold readOctet at h
  simp only [] at h
  split at h
  · exact absurd h (by simp)
  · split at h
    · rename_i hle
      obtain rfl := Option.some.inj h
      omega
    · exact absurd h (by simp)

theorem readAddress_lt {s : String} {n : Nat} (h : readAddress s = some n) : n < 2 ^ 32 := by
  unfold readAddress at h
  split at h
  · rename_i a b c d hm
    obtain rfl := Option.some.inj h
    have hall : ∀ x ∈ [a, b, c, d], x < 256 := by
      intro x hx
      obtain ⟨s, -, hs⟩ := Option.exists_of_mem_mapM hm hx
      exact readOctet_lt hs
    simp only [List.forall_mem_cons] at hall
    obtain ⟨ha, hb, hc, hd, -⟩ := hall
    omega
  · exact absurd h (by simp)

theorem lengthOfMask_le {m len : Nat} (h : lengthOfMask m = some len) : len ≤ 32 := by
  unfold lengthOfMask at h
  rw [Option.orElse_eq_or] at h
  rcases Option.or_eq_some_iff.mp h with h | ⟨-, h⟩
  all_goals
    have hm := List.mem_of_find?_eq_some h
    rw [List.mem_range] at hm
    omega

theorem readLength_le {s : String} {len : Nat} (h : readLength s = some len) : len ≤ 32 := by
  unfold readLength at h
  simp only [] at h
  split at h
  · rename_i hc
    obtain rfl := Option.some.inj h
    simp only [Bool.and_eq_true, decide_eq_true_eq] at hc
    exact hc.2
  · obtain ⟨m, -, hm⟩ := Option.bind_eq_some_iff.mp h
    exact lengthOfMask_le hm

theorem readLength_toString {len : Nat} (h : len ≤ 32) : readLength (toString len) = some len := by
  have hlt : len < 33 := by omega
  revert hlt
  clear h
  revert len
  decide +kernel

/-- A network has a length of at most 32, and an address without host bits. -/
structure Network.Normal (n : Network) : Prop where
  prefixlen : n.prefixlen ≤ 32
  address : n.address < 2 ^ 32
  hostBits : n.address % 2 ^ (32 - n.prefixlen) = 0

/-- What is read is normal. -/
theorem readNetwork_normal {strict : Bool} {s : String} {n : Network}
    (h : readNetwork strict s = some n) : n.Normal := by
  have hmake : ∀ a len, a < 2 ^ 32 → len ≤ 32 →
      (if strict && a - a % 2 ^ (32 - len) ≠ a then none
        else some (Network.mk (a - a % 2 ^ (32 - len)) len)) = some n → n.Normal := by
    intro a len ha hlen hn
    split at hn
    · exact absurd hn (by simp)
    · obtain rfl := Option.some.inj hn
      refine ⟨hlen, lt_of_le_of_lt (Nat.sub_le _ _) ha, ?_⟩
      exact Nat.sub_mod_eq_zero_of_mod_eq (Nat.mod_mod _ _).symm
  unfold readNetwork at h
  simp only [] at h
  split at h
  · obtain ⟨a, ha, h⟩ := Option.bind_eq_some_iff.mp h
    exact hmake a 32 (readAddress_lt ha) le_rfl h
  · obtain ⟨a, ha, h⟩ := Option.bind_eq_some_iff.mp h
    obtain ⟨len, hlen, h⟩ := Option.bind_eq_some_iff.mp h
    exact hmake a len (readAddress_lt ha) (readLength_le hlen) h
  · exact absurd h (by simp)

/-- A network is read back from its text. -/
theorem readNetwork_show {n : Network} (h : n.Normal) : readNetwork false n.show = some n := by
  have hslash : '/' ∉ n.first.toList := not_mem_showAddress (by decide) (by decide) _
  have hlast : '/' ∉ (toString n.prefixlen).toList := Text.not_mem_toString_nat (by decide)
  have hsplit : Text.splitOn n.show '/' = [n.first, toString n.prefixlen] := by
    show Text.splitOn (n.first ++ String.singleton '/' ++ toString n.prefixlen) '/' = _
    rw [Text.splitOn_append hslash, Text.splitOn_none hlast]
  unfold readNetwork
  rw [hsplit]
  unfold Network.first
  simp only [readAddress_showAddress h.address, readLength_toString h.prefixlen,
    Option.bind_some, h.hostBits, Nat.sub_zero, Bool.false_and]
  simp

/-- A bare address is the network of one address. -/
theorem readNetwork_showAddress {a : Nat} (h : a < 2 ^ 32) :
    readNetwork false (showAddress a) = some ⟨a, 32⟩ := by
  have hslash : '/' ∉ (showAddress a).toList := not_mem_showAddress (by decide) (by decide) _
  unfold readNetwork
  rw [Text.splitOn_none hslash]
  simp only [readAddress_showAddress h, Option.bind_some]
  simp [Nat.mod_one]

end Ipv4
