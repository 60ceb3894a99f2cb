import Netclient.Router.Rules
import Mathlib.Data.List.Infix
import Mathlib.Data.List.Chain
import Mathlib.Algebra.Group.Nat.Basic
/-!
# Proxy — the loopback address allocator

`GetFreeIp` reads its CIDR with `iplib.Net4FromStr` and probes addresses in
order, from the block's `FirstAddress` on through `NextIP`, each by opening
a UDP socket from it to `127.0.0.1:dstPort`. It steps past a probe that
fails because the address cannot be assigned or is in use, and returns the
first address whose probe succeeds, the first other error, or `NextIP`'s
error once `NextIP` will not go further.

On a block, `NextIP` steps by one and stops at the broadcast address, so
the loop is a scan of the block's usable addresses (`probeLoop_block`, to
`scan`). For a CIDR written as IPv4 it makes at most as many probes as the
CIDR has usable addresses, and returns an address of the CIDR whose probe
succeeded after every earlier candidate failed as unavailable
(`getFreeIp_ipv4`).

`Net4FromStr` reads an IPv6 CIDR, which `net.ParseCIDR` accepts as well, as
the empty `Net4`, whose first address is the empty `net.IP` (`<nil>`), and
a text with a `.` in it, or an IPv4-in-IPv6 address, at a prefix of at most
32 bits as the block of its last four bytes. Neither holds an address of an
IPv6 CIDR: whatever `GetFreeIp` returns for one lies outside it
(`getFreeIp_outside_cidr`).
-/

namespace Netclient

namespace Proxy

open Router (IP Cidr CidrText v4InV6Prefix)

/-! ## `iplib` on IPv4 blocks -/

/-- Modelled from the spec: a `net.IP` as `GetFreeIp` steps through it: four
bytes, as their big-endian value, or the empty address, which prints as
`<nil>`. -/
inductive Addr
  | nil
  | v4 (val : Nat)
  deriving DecidableEq, Repr

/-- The big-endian value of a 4-byte address. -/
def be32 : IP → Nat
  | [a, b, c, d] => ((a.toNat * 256 + b.toNat) * 256 + c.toNat) * 256 + d.toNat
  | _ => 0

theorem be32_lt (ip : IP) : be32 ip < 2 ^ 32 := by
  unfold be32
  split
  · rename_i a b c d
    have := a.toNat_lt_size
    have := b.toNat_lt_size
    have := c.toNat_lt_size
    have := d.toNat_lt_size
    simp only [UInt8.size] at *
    omega
  · decide

/-- Modelled from the spec: an IPv4 block, by its network address as a
32-bit value and its prefix length. -/
structure Block4 where
  base : Nat
  ones : Nat
  ones_le : ones ≤ 32
  aligned : 2 ^ (32 - ones) ∣ base
  fits : base + 2 ^ (32 - ones) ≤ 2 ^ 32

namespace Block4

variable (b : Block4)

/-- The block's number of addresses. -/
def size : Nat := 2 ^ (32 - b.ones)

/-- The broadcast address, the block's last. -/
def broadcast : Nat := b.base + b.size - 1

/-- Modelled from the spec: `net.IPNet.Contains`: the address under the
block's mask is its network address. -/
def contains : Addr → Bool
  | .v4 a => decide (b.base ≤ a ∧ a < b.base + b.size)
  | .nil => false

end Block4

/-- Modelled from the spec: `iplib.Net4`: an IPv4 block, or the empty
`Net4{}`, whose address and mask are `nil`. -/
inductive Net4
  | empty
  | block (b : Block4)

/-- An address taken down to a multiple of `2^(32-m)` leaves room for the
block after it. -/
theorem floor_fits {a m : Nat} (ha : a < 2 ^ 32) (hm : m ≤ 32) :
    a / 2 ^ (32 - m) * 2 ^ (32 - m) + 2 ^ (32 - m) ≤ 2 ^ 32 := by
  have h32 : 2 ^ 32 = 2 ^ (32 - m) * 2 ^ m := by rw [← Nat.pow_add, Nat.sub_add_cancel hm]
  have hq : a / 2 ^ (32 - m) < 2 ^ m := Nat.div_lt_of_lt_mul (h32 ▸ ha)
  calc a / 2 ^ (32 - m) * 2 ^ (32 - m) + 2 ^ (32 - m) = (a / 2 ^ (32 - m) + 1) * 2 ^ (32 - m) := by
        rw [Nat.succ_mul]
    _ ≤ 2 ^ m * 2 ^ (32 - m) := Nat.mul_le_mul_right _ hq
    _ = 2 ^ 32 := by rw [h32, Nat.mul_comm]

/-- Modelled from the spec: `iplib.NewNet4` of a 4-byte address: the block
of the address under a mask of `masklen` ones, or, for a mask longer than
32 bits (`net.CIDRMask` gives `nil`), the empty `Net4`. -/
def newNet4 (ip : IP) (masklen : Nat) : Net4 :=
  if h : masklen ≤ 32 then
    .block ⟨be32 ip / 2 ^ (32 - masklen) * 2 ^ (32 - masklen), masklen, h,
      Nat.dvd_mul_left _ _, floor_fits (be32_lt ip) h⟩
  else .empty

/-- Modelled from the spec: `iplib.Net4FromStr`. `iplib.ParseCIDR` reads a
text with a `.` in it, or an IPv4-in-IPv6 address at a prefix of at most
32 bits, as the `NewNet4` of the address's last four bytes at the prefix,
and any other as an IPv6 net, for which `Net4FromStr` returns the empty
`Net4`; so it does for a text `net.ParseCIDR` rejects. -/
def net4FromStr (cidr : CidrText) : Net4 :=
  match cidr.parsed with
  | none => .empty
  | some c =>
    if decide ('.' ∈ cidr.text.data) ||
        (c.ip.take 12 == v4InV6Prefix && decide (c.ones ≤ 32)) then
      newNet4 (c.ip.drop 12) c.ones
    else .empty

/-- Modelled from the spec: `iplib.NextIP`: the address plus one, or the
address itself at `255.255.255.255`; the empty address stays empty. -/
def nextIP : Addr → Addr
  | .nil => .nil
  | .v4 a => .v4 (if a = 2 ^ 32 - 1 then a else a + 1)

/-- Modelled from the spec: the errors of `Net4.NextIP`. -/
inductive IplibError
  /-- `ErrAddressOutOfRange`. -/
  | addressOutOfRange
  /-- `ErrBroadcastAddress`. -/
  | broadcastAddress
  deriving DecidableEq, Repr

namespace Net4

/-- Modelled from the spec: `Net4.FirstAddress`: a `/31`'s or `/32`'s
network address, the address after it otherwise; for the empty `Net4`,
`iplib.NextIP` of its empty address. -/
def firstAddress : Net4 → Addr
  | .block b => if 31 ≤ b.ones then .v4 b.base else Proxy.nextIP (.v4 b.base)
  | .empty => Proxy.nextIP .nil

/-- Modelled from the spec: `Net4.NextIP`: `ErrAddressOutOfRange` when the
address or the one after it lies outside the net, `ErrBroadcastAddress`
when the one after it is the broadcast address, and that one otherwise.
The empty `Net4` contains no address. -/
def nextIP : Net4 → Addr → Except IplibError Addr
  | .empty, _ => .error .addressOutOfRange
  | .block b, ip =>
    if !b.contains ip then .error .addressOutOfRange
    else
      let xip := Proxy.nextIP ip
      if !b.contains xip then .error .addressOutOfRange
      else if xip = .v4 b.broadcast then .error .broadcastAddress
      else .ok xip

end Net4

/-! ## `GetFreeIp` -/

/-- What a probe returns: `net.DialUDP` from the candidate, port
`NmProxyPort`, to `127.0.0.1:dstPort`, succeeding or failing with an error
of the given text. -/
inductive Dial
  | ok
  | error (msg : String)
  deriving DecidableEq, Repr

/-- `strings.Contains`. -/
def stringsContains (s substr : String) : Bool := decide (substr.data <:+: s.data)

/-- The probe errors `GetFreeIp` steps past: the address cannot be
assigned, or is in use. -/
def addressUnavailable (msg : String) : Bool :=
  stringsContains msg "can't assign requested address" ||
    stringsContains msg "address already in use" ||
    stringsContains msg "cannot assign requested address"

/-- What `GetFreeIp` returns as its error. -/
inductive FreeIpError
  /-- `errors.New("dst port should be set")`. -/
  | dstPortUnset
  /-- `net.ParseCIDR`'s. -/
  | parseCIDR
  /-- `Net4.NextIP`'s. -/
  | nextIP (e : IplibError)
  /-- The probe's. -/
  | dial (msg : String)
  deriving DecidableEq, Repr

/-- The `for` loop of `GetFreeIp` from candidate `a`, with `fuel` probes
left: the addresses probed, in order, and what `GetFreeIp` returns, or
`none` once the fuel runs out. The loopback alias made first on darwin only
logs its failure. -/
def probeLoop (net4 : Net4) (dial : Addr → Dial) :
    Nat → Addr → List Addr × Option (Except FreeIpError Addr)
  | 0, _ => ([], none)
  | fuel + 1, a =>
    match dial a with
    | .ok => ([a], some (.ok a))
    | .error msg =>
      if addressUnavailable msg then
        match net4.nextIP a with
        | .error e => ([a], some (.error (.nextIP e)))
        | .ok a' =>
          let r := probeLoop net4 dial fuel a'
          (a :: r.1, r.2)
      else ([a], some (.error (.dial msg)))

/-- `GetFreeIp(cidrAddr, dstPort)`, each probe's outcome given by `dial`:
the addresses probed, and what it returns. The loop is given `2^32` probes,
more than a block has addresses; on an IPv4 CIDR it never needs them all
(`getFreeIp_ipv4`). -/
def getFreeIp (cidrAddr : CidrText) (dstPort : Int) (dial : Addr → Dial) :
    List Addr × Option (Except FreeIpError Addr) :=
  if dstPort = 0 then ([], some (.error .dstPortUnset))
  else match cidrAddr.parsed with
    | none => ([], some (.error .parseCIDR))
    | some _ =>
      let net4 := net4FromStr cidrAddr
      probeLoop net4 dial (2 ^ 32) net4.firstAddress

/-! ## What the allocator is for -/

/-- Whether an address lies in the CIDR, as `IPNet.Contains` of the network
`net.ParseCIDR` returns decides it: for an IPv4 CIDR, an IPv4 address with
the CIDR's first `ones` bits; for an IPv6 one, an IPv4 address only when
the CIDR is an IPv4-in-IPv6 address at a prefix of at least 96 bits, by its
first `ones - 96` bits. The empty address lies in none. -/
def inCidr (c : Cidr) : Addr → Bool
  | .nil => false
  | .v4 a =>
    if c.is4 then decide (a / 2 ^ (32 - c.ones) = be32 (c.ip.drop 12) / 2 ^ (32 - c.ones))
    else c.ip.take 12 == v4InV6Prefix && decide (96 ≤ c.ones) &&
      decide (a / 2 ^ (128 - c.ones) = be32 (c.ip.drop 12) / 2 ^ (128 - c.ones))

/-- The usable host addresses of an IPv4 CIDR of prefix `ones`, as `iplib`
counts them (`Count`): one for a `/32`, two for a `/31` (RFC 3021), and all
but the network and broadcast addresses otherwise. -/
def usableHosts4 (ones : Nat) : Nat :=
  if ones = 32 then 1 else if ones = 31 then 2 else 2 ^ (32 - ones) - 2

/-- The allocator on consecutive addresses: `x, x + 1, …`, `k` of them,
probed in order past each probe that fails as unavailable, until one
succeeds or fails otherwise, and `e` once all `k` have failed as
unavailable. The probes made, and the outcome. -/
def scan (dial : Addr → Dial) (e : FreeIpError) :
    Nat → Nat → List Addr × Except FreeIpError Addr
  | _, 0 => ([], .error e)
  | x, k + 1 =>
    match dial (.v4 x) with
    | .ok => ([.v4 x], .ok (.v4 x))
    | .error msg =>
      if addressUnavailable msg then
        let r := scan dial e (x + 1) k
        (.v4 x :: r.1, r.2)
      else ([.v4 x], .error (.dial msg))

/-! ## The candidates -/

namespace Block4

variable (b : Block4)

/-- The first candidate, `FirstAddress`. -/
def first : Nat := if 31 ≤ b.ones then b.base else b.base + 1

/-- How many candidates `NextIP` reaches from the first: one in a `/31` or
`/32`, all but the network and broadcast addresses otherwise. -/
def candidates : Nat := if 31 ≤ b.ones then 1 else b.size - 2

/-- `NextIP`'s error past the last candidate. -/
def endError : IplibError :=
  if b.ones = 32 ∧ b.base + 1 < 2 ^ 32 then .addressOutOfRange else .broadcastAddress

theorem fits_size : b.base + b.size ≤ 2 ^ 32 := b.fits

/-- The block's size by its prefix: at least four up to a `/30`, two for a
`/31`, one for a `/32`. -/
theorem size_cases :
    b.ones < 31 ∧ 4 ≤ b.size ∨ b.ones = 31 ∧ b.size = 2 ∨ b.ones = 32 ∧ b.size = 1 := by
  have := b.ones_le
  rcases Nat.lt_or_ge b.ones 31 with h | h
  · exact .inl ⟨h, calc 4 = 2 ^ 2 := rfl
      _ ≤ 2 ^ (32 - b.ones) := Nat.pow_le_pow_right (by decide) (by omega)⟩
  · rcases (by omega : b.ones = 31 ∨ b.ones = 32) with h | h <;> simp [size, h]

/-- The candidates by the prefix: from the address after the network
address to the one before the broadcast address up to a `/30`; the network
address alone in a `/31` or `/32`. -/
theorem candidates_cases :
    b.ones < 31 ∧ 4 ≤ b.size ∧ b.first = b.base + 1 ∧ b.candidates = b.size - 2 ∧
        b.endError = .broadcastAddress ∨
      b.ones = 31 ∧ b.size = 2 ∧ b.first = b.base ∧ b.candidates = 1 ∧
        b.endError = .broadcastAddress ∨
      b.ones = 32 ∧ b.size = 1 ∧ b.first = b.base ∧ b.candidates = 1 ∧
        b.endError = if b.base + 1 < 2 ^ 32 then .addressOutOfRange else .broadcastAddress := by
  unfold first candidates endError
  rcases b.size_cases with ⟨h, hs⟩ | ⟨h, hs⟩ | ⟨h, hs⟩
  · exact .inl ⟨h, hs, if_neg (by omega), if_neg (by omega), if_neg (by omega)⟩
  · exact .inr (.inl ⟨h, hs, if_pos (by omega), if_pos (by omega), if_neg (by omega)⟩)
  · exact .inr (.inr ⟨h, hs, if_pos (by omega), if_pos (by omega), by simp only [h, true_and]⟩)

theorem candidates_range :
    b.base ≤ b.first ∧ 0 < b.candidates ∧ b.first + b.candidates ≤ b.base + b.size := by
  rcases b.candidates_cases with
    ⟨-, hs, h1, h2, -⟩ | ⟨-, hs, h1, h2, -⟩ | ⟨-, hs, h1, h2, -⟩ <;> omega

theorem candidates_le_usable : b.candidates ≤ usableHosts4 b.ones := by
  unfold usableHosts4
  rcases b.candidates_cases with ⟨h, -, -, h2, -⟩ | ⟨h, -, -, h2, -⟩ | ⟨h, -, -, h2, -⟩
  · rw [if_neg (by omega), if_neg (by omega), h2]; rfl
  all_goals simp [h, h2]

theorem firstAddress_block : (Net4.block b).firstAddress = .v4 b.first := by
  have hf := b.fits_size
  simp only [Net4.firstAddress]
  rcases b.candidates_cases with ⟨h, hs, h1, -, -⟩ | ⟨h, -, h1, -, -⟩ | ⟨h, -, h1, -, -⟩
  · rw [if_neg (by omega), nextIP, if_neg (by omega), h1]
  all_goals rw [if_pos (by omega), h1]

theorem nextIP_block {x : Nat} (hx : b.first ≤ x) (hx' : x < b.first + b.candidates) :
    (Net4.block b).nextIP (.v4 x) =
      if x + 1 < b.first + b.candidates then .ok (.v4 (x + 1)) else .error b.endError := by
  have hf := b.fits_size
  simp only [Net4.nextIP, nextIP, contains, broadcast, Addr.v4.injEq, Bool.not_eq_true',
    decide_eq_false_iff_not]
  rcases b.candidates_cases with
    ⟨-, hs, h1, h2, he⟩ | ⟨-, hs, h1, h2, he⟩ | ⟨-, hs, h1, h2, he⟩
  · have hmax : x ≠ 2 ^ 32 - 1 := by omega
    by_cases hin : x + 1 < b.first + b.candidates
    · simp (disch := omega) only [hin, hmax, if_pos, if_neg, if_true, if_false]
    · simp (disch := omega) only [hin, hmax, he, if_pos, if_neg, if_true, if_false]
  · have hmax : x ≠ 2 ^ 32 - 1 := by omega
    simp (disch := omega) only [hmax, he, if_pos, if_neg, if_true, if_false]
  · by_cases hmax : x = 2 ^ 32 - 1 <;>
    simp (disch := omega) only [hmax, he, if_pos, if_neg, if_true, if_false]
end Block4

/-! ## The loop is a scan -/

section Loop

variable (dial : Addr → Dial)

/-- **The loop on a block is a scan of its candidates.** From a candidate
`x` with `k` candidates left, given fuel for them, the loop makes the
scan's probes and returns its result, with `NextIP`'s error past the last
candidate. -/
theorem probeLoop_block (b : Block4) :
    ∀ k fuel x, 0 < k → k ≤ fuel → b.first ≤ x → x + k = b.first + b.candidates →
      probeLoop (.block b) dial fuel (.v4 x) =
        ((scan dial (.nextIP b.endError) x k).1, some (scan dial (.nextIP b.endError) x k).2)
  | 0, _, _, hk, _, _, _ => absurd hk (Nat.lt_irrefl 0)
  | _ + 1, 0, _, _, hk, _, _ => absurd hk (by omega)
  | k + 1, fuel + 1, x, _, hk, hx, hxk => by
    simp only [probeLoop, scan]
    cases dial (.v4 x) with
    | ok => rfl
    | error msg =>
      simp only []
      cases addressUnavailable msg
      · rfl
      · simp only [if_true]
        rw [b.nextIP_block hx (by omega)]
        by_cases hk0 : 0 < k
        · rw [if_pos (by omega)]
          dsimp only
          rw [probeLoop_block b k fuel (x + 1) hk0 (by omega) (by omega) (by omega)]
        · obtain rfl : k = 0 := by omega
          rw [if_neg (by omega)]
          rfl

theorem getFreeIp_block {cidrAddr : CidrText} {c : Cidr} {dstPort : Int} {b : Block4}
    (hc : cidrAddr.parsed = some c) (hport : dstPort ≠ 0) (hb : net4FromStr cidrAddr = .block b) :
    getFreeIp cidrAddr dstPort dial =
      ((scan dial (.nextIP b.endError) b.first b.candidates).1,
        some (scan dial (.nextIP b.endError) b.first b.candidates).2) := by
  obtain ⟨-, hpos, hle⟩ := b.candidates_range
  have hf := b.fits_size
  simp only [getFreeIp, if_neg hport, hc, hb, b.firstAddress_block]
  exact probeLoop_block dial b _ _ _ hpos (by omega) le_rfl rfl

end Loop

/-! ## The scan -/

section Scan

variable (dial : Addr → Dial) (e : FreeIpError)

theorem scan_length_le : ∀ x k, (scan dial e x k).1.length ≤ k
  | _, 0 => le_rfl
  | x, k + 1 => by
    simp only [scan]
    cases dial (.v4 x) with
    | ok => simp
    | error msg =>
      simp only []
      cases addressUnavailable msg
      · simp
      · simpa using scan_length_le (x + 1) k

/-- The probes are consecutive addresses from `x`. -/
theorem scan_probes :
    ∀ x k, (scan dial e x k).1 = (List.range' x (scan dial e x k).1.length).map .v4
  | _, 0 => rfl
  | x, k + 1 => by
    simp only [scan]
    cases dial (.v4 x) with
    | ok => rfl
    | error msg =>
      simp only []
      cases addressUnavailable msg
      · rfl
      · simp only [if_true, List.length_cons, List.range'_succ, List.map_cons]
        exact congrArg _ (scan_probes (x + 1) k)

theorem scan_ne_nil : ∀ x k, 0 < k → (scan dial e x k).1 ≠ []
  | _, 0, hk => absurd hk (Nat.lt_irrefl 0)
  | x, k + 1, _ => by
    simp only [scan]
    cases dial (.v4 x) with
    | ok => simp
    | error msg =>
      simp only []
      cases addressUnavailable msg <;> simp

/-- Every probe but the last failed as unavailable. -/
theorem scan_dropLast : ∀ x k, ∀ a ∈ (scan dial e x k).1.dropLast,
    ∃ msg, dial a = .error msg ∧ addressUnavailable msg = true
  | _, 0 => by simp [scan]
  | x, k + 1 => by
    simp only [scan]
    cases hd : dial (.v4 x) with
    | ok => simp
    | error msg =>
      simp only []
      cases hu : addressUnavailable msg
      · simp
      · simp only [if_true]
        intro a ha
        by_cases hr : (scan dial e (x + 1) k).1 = []
        · simp [hr] at ha
        · rw [List.dropLast_cons_of_ne_nil hr, List.mem_cons] at ha
          rcases ha with rfl | ha
          · exact ⟨msg, hd, hu⟩
          · exact scan_dropLast (x + 1) k a ha

/-- The result is read off the last probe: its address when it succeeded,
`e` when it failed as unavailable, its error otherwise. -/
theorem scan_last : ∀ x k, 0 < k → ∃ a, (scan dial e x k).1.getLast? = some a ∧
    (dial a = .ok → (scan dial e x k).2 = .ok a) ∧
    ∀ msg, dial a = .error msg →
      (scan dial e x k).2 = if addressUnavailable msg then .error e else .error (.dial msg)
  | _, 0, hk => absurd hk (Nat.lt_irrefl 0)
  | x, k + 1, _ => by
    simp only [scan]
    cases hd : dial (.v4 x) with
    | ok => exact ⟨.v4 x, rfl, fun _ => rfl, fun msg h => by simp [hd] at h⟩
    | error msg =>
      simp only []
      cases hu : addressUnavailable msg
      · exact ⟨.v4 x, rfl, fun h => by simp [hd] at h, fun msg' h => by
          simp only [hd, Dial.error.injEq] at h; subst h; simp [hu]⟩
      · simp only [if_true]
        by_cases hk : 0 < k
        · obtain ⟨a, hl, hok, herr⟩ := scan_last (x + 1) k hk
          refine ⟨a, ?_, hok, herr⟩
          obtain ⟨b, l, hbl⟩ := List.exists_cons_of_ne_nil (scan_ne_nil dial e (x + 1) k hk)
          rw [hbl] at hl ⊢
          rwa [List.getLast?_cons_cons]
        · obtain rfl : k = 0 := by omega
          exact ⟨.v4 x, rfl, fun h => by simp [hd] at h, fun msg' h => by
            simp only [hd, Dial.error.injEq] at h; subst h; simp [hu, scan]⟩

end Scan


/-! ## IPv4 CIDRs -/

/-- A probe of the scan is a consecutive address from `x`. -/
theorem mem_scan {dial : Addr → Dial} {e : FreeIpError} {x k : Nat} {a : Addr}
    (h : a ∈ (scan dial e x k).1) :
    ∃ y, a = .v4 y ∧ x ≤ y ∧ y < x + (scan dial e x k).1.length := by
  rw [scan_probes dial e] at h
  obtain ⟨y, hy, rfl⟩ := List.mem_map.1 h
  exact ⟨y, rfl, List.mem_range'_1.1 hy⟩

/-- Consecutive numbers each related to the next form a chain. -/
theorem chain'_range' {R : Nat → Nat → Prop} :
    ∀ x n, (∀ y, x ≤ y → y + 1 < x + n → R y (y + 1)) → (List.range' x n).Chain' R := by
  intro x n h
  have hs : (List.range' x n).Chain' (fun a b => b = a + 1) := by
    cases n with
    | zero => exact List.chain'_nil
    | succ n => exact List.chain_succ_range' x n 1
  refine (List.Chain'.iff_mem.1 hs).imp fun a b ⟨ha, hb, hab⟩ => ?_
  rw [List.mem_range'_1] at ha hb
  exact hab ▸ h a ha.1 (by omega)

/-- A CIDR written as IPv4 is read as the block of its address under its
prefix, and every address of the block lies in the CIDR. -/
theorem net4FromStr_ipv4 {cidrAddr : CidrText} {c : Cidr} (hc : cidrAddr.parsed = some c)
    (h4 : c.is4 = true) :
    ∃ b : Block4, net4FromStr cidrAddr = .block b ∧ b.ones = c.ones ∧
      ∀ a, b.contains a = true → inCidr c a = true := by
  have hle : c.ones ≤ 32 := by simpa [h4] using c.ones_le
  refine ⟨⟨be32 (c.ip.drop 12) / 2 ^ (32 - c.ones) * 2 ^ (32 - c.ones), c.ones, hle,
    Nat.dvd_mul_left _ _, floor_fits (be32_lt _) hle⟩, ?_, rfl, ?_⟩
  · simp [net4FromStr, hc, c.is4_mapped h4, hle, newNet4]
  · rintro (_ | y) h
    · cases h
    · simp only [Block4.contains, Block4.size, decide_eq_true_eq] at h
      simp only [inCidr, h4, if_true, decide_eq_true_eq]
      exact Nat.div_eq_of_lt_le h.1 (by rw [Nat.succ_mul]; exact h.2)

/-- **`GetFreeIp` on an IPv4 CIDR.** For every CIDR written as IPv4 that
`net.ParseCIDR` accepts, every non-zero port and every outcome of each
probe, `GetFreeIp` returns, after at most as many probes as the CIDR has
usable addresses. It probes `FirstAddress` first, and each next candidate
is `NextIP` of the one before; every probe but the last failed as
unavailable. It returns an address only when the last probe, of that
address, succeeded, and the address lies in the CIDR; and a probe that
fails otherwise, or after which `NextIP` fails, is the last one, and its
error is returned. -/
theorem getFreeIp_ipv4 {cidrAddr : CidrText} {c : Cidr} (hc : cidrAddr.parsed = some c)
    (h4 : c.is4 = true) {dstPort : Int} (hport : dstPort ≠ 0) (dial : Addr → Dial) :
    ∃ ps res, getFreeIp cidrAddr dstPort dial = (ps, some res) ∧
      ps.length ≤ usableHosts4 c.ones ∧
      ps.head? = some (net4FromStr cidrAddr).firstAddress ∧
      ps.Chain' (fun a a' => (net4FromStr cidrAddr).nextIP a = .ok a') ∧
      (∀ a ∈ ps.dropLast, ∃ msg, dial a = .error msg ∧ addressUnavailable msg = true) ∧
      (∀ a, res = .ok a → ps.getLast? = some a ∧ dial a = .ok ∧ inCidr c a = true) ∧
      (∀ a ∈ ps, ∀ msg, dial a = .error msg → addressUnavailable msg = false →
        ps.getLast? = some a ∧ res = .error (.dial msg)) ∧
      (∀ a ∈ ps, ∀ msg e, dial a = .error msg → addressUnavailable msg = true →
        (net4FromStr cidrAddr).nextIP a = .error e →
          ps.getLast? = some a ∧ res = .error (.nextIP e)) := by
  obtain ⟨b, hb, hones, hin⟩ := net4FromStr_ipv4 hc h4
  obtain ⟨hbase, hpos, hle⟩ := b.candidates_range
  rw [getFreeIp_block dial hc hport hb, hb, b.firstAddress_block]
  have hlen := scan_length_le dial (.nextIP b.endError) b.first b.candidates
  have hrange := scan_probes dial (.nextIP b.endError) b.first b.candidates
  have hne := scan_ne_nil dial (.nextIP b.endError) b.first b.candidates hpos
  obtain ⟨l, hl, hok, herr⟩ := scan_last dial (.nextIP b.endError) b.first b.candidates hpos
  have hmem : ∀ a ∈ (scan dial (.nextIP b.endError) b.first b.candidates).1,
      ∃ y, a = .v4 y ∧ b.first ≤ y ∧
        y < b.first + (scan dial (.nextIP b.endError) b.first b.candidates).1.length :=
    fun _ => mem_scan
  set ps := (scan dial (.nextIP b.endError) b.first b.candidates).1
  set res := (scan dial (.nextIP b.endError) b.first b.candidates).2
  have hlen0 : 0 < ps.length := List.length_pos.2 hne
  have hlast : ps.getLast? = some (.v4 (b.first + ps.length - 1)) := by
    rw [hrange, List.getLast?_map, List.getLast?_range', if_neg (by omega), List.length_map,
      List.length_range']
    rfl
  have hlast' : ∀ a ∈ ps, a ∉ ps.dropLast → ps.getLast? = some a := fun a ha hd => by
    rw [List.getLast?_eq_getLast ps hne]
    have := List.dropLast_append_getLast hne
    rw [← this, List.mem_append, List.mem_singleton] at ha
    exact congrArg some (ha.resolve_left hd).symm
  refine ⟨ps, res, rfl, hones ▸ hlen.trans b.candidates_le_usable, ?_, ?_,
    scan_dropLast dial _ _ _,
    ?_, ?_, ?_⟩
  · rw [hrange, List.head?_map, List.head?_range', if_neg (by omega)]
    rfl
  · rw [hrange, List.chain'_map]
    exact chain'_range' _ _ fun y hy hy' => by
      rw [b.nextIP_block hy (by omega), if_pos (by omega)]
  · intro a ha
    cases hd : dial l with
    | ok =>
      obtain rfl := Except.ok.inj ((hok hd).symm.trans ha)
      obtain ⟨y, rfl, hy, hy'⟩ := hmem _ (List.mem_of_getLast?_eq_some hl)
      refine ⟨hl, hd, hin _ ?_⟩
      simp only [Block4.contains, decide_eq_true_eq]
      omega
    | error msg =>
      rw [herr msg hd] at ha
      split_ifs at ha
  · intro a ha msg hd hu
    have hnd : a ∉ ps.dropLast := fun h => by
      obtain ⟨msg', hd', hu'⟩ := scan_dropLast dial _ _ _ a h
      rw [hd, Dial.error.injEq] at hd'
      subst hd'
      rw [hu] at hu'
      cases hu'
    have hla := hlast' a ha hnd
    rw [hl, Option.some.injEq] at hla
    subst hla
    exact ⟨hl, by rw [herr msg hd, hu]; rfl⟩
  · intro a ha msg e hd hu hn
    obtain ⟨y, rfl, hy, hy'⟩ := hmem _ ha
    rw [b.nextIP_block hy (by omega)] at hn
    split_ifs at hn with hyk
    obtain rfl := Except.error.inj hn
    have hya : ps.getLast? = some (.v4 y) := by rw [hlast]; congr 2; omega
    rw [hl, Option.some.injEq] at hya
    subst hya
    exact ⟨hl, by rw [herr msg hd, hu]; rfl⟩


/-- The CIDR `127.1.0.0/24`. -/
def localCidr : Cidr :=
  ⟨v4InV6Prefix ++ [127, 1, 0, 0], true, 24, by decide, by decide, by decide⟩

/-- `GetFreeIp("127.1.0.0/24", 51820)` with every probe succeeding returns
`127.1.0.1`, the CIDR's first usable address, after one probe. -/
theorem getFreeIp_local_first :
    getFreeIp ⟨"127.1.0.0/24", some localCidr⟩ 51820 (fun _ => .ok) =
        ([.v4 0x7f010001], some (.ok (.v4 0x7f010001))) ∧
      inCidr localCidr (.v4 0x7f010001) = true := by
  obtain ⟨ps, res, h, -, -, -, -, hok, -⟩ :=
    getFreeIp_ipv4 (rfl : (⟨"127.1.0.0/24", some localCidr⟩ : CidrText).parsed = some localCidr)
      rfl (by decide : (51820 : Int) ≠ 0) (fun _ => .ok)
  have hrun : getFreeIp ⟨"127.1.0.0/24", some localCidr⟩ 51820 (fun _ => .ok) =
      ([.v4 0x7f010001], some (.ok (.v4 0x7f010001))) := rfl
  rw [hrun, Prod.mk.injEq, Option.some.injEq] at h
  exact ⟨hrun, (hok _ h.2.symm).2.2⟩

/-! ## IPv6 CIDRs -/

/-- On the empty `Net4` the loop probes the address it starts from alone,
and returns that address or an error. -/
theorem probeLoop_empty_ok {dial : Addr → Dial} {fuel : Nat} {a a' : Addr}
    (h : (probeLoop .empty dial fuel a).2 = some (.ok a')) : a' = a := by
  cases fuel with
  | zero => cases h
  | succ fuel =>
    simp only [probeLoop] at h
    cases hd : dial a with
    | ok =>
      simp only [hd, Option.some.injEq, Except.ok.injEq] at h
      exact h.symm
    | error msg =>
      simp only [hd, Net4.nextIP] at h
      split at h <;> simp at h

/-- **`GetFreeIp` on an IPv6 CIDR.** For every CIDR `net.ParseCIDR` accepts
that is not written as IPv4, every port and every outcome of each probe,
an address `GetFreeIp` returns lies outside the CIDR. `Net4FromStr` reads a
prefix of more than 32 bits as the empty `Net4`, whose only candidate is
the empty address, and a shorter one as a block of IPv4 addresses, which an
IPv6 CIDR holds only at a prefix of 96 bits or more. -/
theorem getFreeIp_outside_cidr {cidrAddr : CidrText} {c : Cidr} (hc : cidrAddr.parsed = some c)
    (h6 : c.is4 = false) {dstPort : Int} {dial : Addr → Dial} {a : Addr}
    (hres : (getFreeIp cidrAddr dstPort dial).2 = some (.ok a)) : inCidr c a = false := by
  by_cases hones : c.ones ≤ 32
  · cases a with
    | nil => rfl
    | v4 y => simp [inCidr, h6, show ¬ 96 ≤ c.ones by omega]
  · have hempty : net4FromStr cidrAddr = .empty := by
      simp only [net4FromStr, hc, newNet4, dif_neg hones, ite_self]
    simp only [getFreeIp, hc, hempty] at hres
    split_ifs at hres
    · cases hres
    · obtain rfl := probeLoop_empty_ok hres
      rfl

/-- The IPv6 CIDR `fd00::/64`. -/
def uniqueLocalCidr : Cidr :=
  ⟨[0xfd, 0, 0, 0, 0, 0, 0, 0, 0, 0, 0, 0, 0, 0, 0, 0], false, 64,
    by decide, by decide, by decide⟩

/-- `GetFreeIp("fd00::/64", 51820)` with every probe succeeding probes the
empty address and returns it, printed `<nil>`, with a nil error. -/
theorem getFreeIp_ipv6_nil :
    getFreeIp ⟨"fd00::/64", some uniqueLocalCidr⟩ 51820 (fun _ => .ok) =
        ([.nil], some (.ok .nil)) ∧
      inCidr uniqueLocalCidr .nil = false :=
  ⟨rfl, getFreeIp_outside_cidr
    (rfl : (⟨"fd00::/64", some uniqueLocalCidr⟩ : CidrText).parsed = some uniqueLocalCidr) rfl
    (rfl : (getFreeIp ⟨"fd00::/64", some uniqueLocalCidr⟩ 51820 (fun _ => .ok)).2 =
      some (.ok .nil))⟩

end Proxy

end Netclient
