import Netclient.Router.Rules
/-!
# Router — how the kernel runs a rule

A rule's expressions run in order on a packet, all on register 1: `Meta`
loads the packet's family or a device name (`IFNAMSIZ` bytes, NUL-padded),
`Payload` loads bytes of the network header, `Bitwise` masks the register,
`Cmp` compares the register's first bytes with its data and ends the rule
unmatched when the comparison fails, and the rule reaches the verdict or
`Masq` it ends with (`evalExprs`).

Each expression group of the builders has its lemma: the family check
passes iff the packet is of the rule's family, the interface check iff the
device is the named one, and the address checks compare the packet's
address, whole or under the mask (`evalExprs_family`, `evalExprs_iifname`,
`evalExprs_addr`, `evalExprs_masked`).
-/

namespace Netclient

namespace Router

/-- Modelled from the spec: a device name as the kernel holds it: fewer than
`IFNAMSIZ` (16) bytes, none of them NUL. -/
def IfName (name : List UInt8) : Prop := name.length < 16 ∧ 0 ∉ name

instance : DecidablePred IfName := fun _ => inferInstanceAs (Decidable (_ ∧ _))

/-- Modelled from the spec: a packet as the rules see it: its family, the
devices it came in and goes out on, and its network header up to the
destination address — for IPv4 12 bytes, then the source and destination
addresses of 4 bytes each; for IPv6 8 bytes, then the two addresses of 16
bytes each. -/
structure Packet where
  isIpv4 : Bool
  iif : List UInt8
  oif : List UInt8
  /-- The header's bytes before the source address. -/
  pre : List UInt8
  src : IP
  dst : IP
  iif_name : IfName iif
  oif_name : IfName oif
  pre_length : pre.length = if isIpv4 then 12 else 8
  src_length : src.length = if isIpv4 then 4 else 16
  dst_length : dst.length = if isIpv4 then 4 else 16

namespace Packet

/-- The network header, as far as the rules read it. -/
def header (p : Packet) : List UInt8 := p.pre ++ p.src ++ p.dst

/-- The packet's address at `d`. -/
def addr (p : Packet) : Dir → IP
  | .src => p.src
  | .dst => p.dst

/-- A device name in the kernel's `IFNAMSIZ` bytes, NUL-padded. -/
def ifnameBytes (name : List UInt8) : List UInt8 := name ++ List.replicate (16 - name.length) 0

/-- Modelled from the spec: what `Meta` loads: `NFPROTO_IPV4` (2) or
`NFPROTO_IPV6` (10), or a device's name. -/
def load (p : Packet) : MetaKey → List UInt8
  | .nfproto => [if p.isIpv4 then 2 else 10]
  | .iifname => ifnameBytes p.iif
  | .oifname => ifnameBytes p.oif

theorem addr_length (p : Packet) (d : Dir) : (p.addr d).length = addrLen p.isIpv4 := by
  cases d
  · exact p.src_length
  · exact p.dst_length

/-- The code's offsets and lengths are where the header holds the addresses. -/
theorem payload_addr {p : Packet} {isIpv4 : Bool} (hf : p.isIpv4 = isIpv4) (d : Dir) :
    (p.header.drop (addrOffset isIpv4 d)).take (addrLen isIpv4) = p.addr d := by
  revert hf
  obtain ⟨f, iif, oif, pre, src, dst, -, -, hpre, hsrc, hdst⟩ := p
  rintro rfl
  cases f <;> cases d <;> simp_all [header, addr, addrOffset, addrLen,
    List.drop_append_eq_append_drop, List.take_append_eq_append_take, List.drop_eq_nil_of_le,
    List.take_of_length_le]

end Packet

/-- What a rule reaches: a verdict, or the masquerading of a NAT rule. -/
inductive Target
  | verdict (v : Verdict)
  | masq
  deriving DecidableEq, Repr

/-- Modelled from the spec: the rule's expressions run on a packet, the
register holding the last value loaded or masked: the verdict or `Masq`
reached, or `none` when a `Cmp` fails or the list ends without one. A `Cmp`
whose data is longer than the register's value does not match. -/
def evalExprs (p : Packet) : List Expr → List UInt8 → Option Target
  | [], _ => none
  | .meta k :: es, _ => evalExprs p es (p.load k)
  | .payload off len :: es, _ => evalExprs p es ((p.header.drop off).take len)
  | .bitwise len mask xor :: es, reg =>
    evalExprs p es (List.zipWith (· ^^^ ·) (List.zipWith (· &&& ·) (reg.take len) mask) xor)
  | .cmp .eq data :: es, reg => if reg.take data.length = data then evalExprs p es reg else none
  | .cmp .neq data :: es, reg => if reg.take data.length = data then none else evalExprs p es reg
  | .counter :: es, reg => evalExprs p es reg
  | .verdict v :: _, _ => some (.verdict v)
  | .masq :: _, _ => some .masq

/-! ## Bytes -/

theorem UInt8.and_255 (x : UInt8) : x &&& 255 = x := by
  cases x
  simp only [HAnd.hAnd, AndOp.and, UInt8.land]
  exact congrArg _ BitVec.and_allOnes

theorem UInt8.xor_0 (x : UInt8) : x ^^^ 0 = x := by
  cases x
  simp only [HXor.hXor, Xor.xor, UInt8.xor]
  exact congrArg _ BitVec.xor_zero

/-- Masking with all ones keeps the bytes. -/
theorem zipWith_and_ones :
    ∀ (l : List UInt8), List.zipWith (· &&& ·) l (List.replicate l.length 255) = l
  | [] => rfl
  | x :: l => by
    rw [List.length_cons, List.replicate_succ, List.zipWith_cons_cons, UInt8.and_255,
      zipWith_and_ones l]

/-- `Xor` with zeros keeps the bytes. -/
theorem zipWith_xor_zeros : ∀ (l : List UInt8) {n : Nat}, l.length ≤ n →
    List.zipWith (· ^^^ ·) l (List.replicate n 0) = l
  | [], _, _ => by simp
  | x :: l, n + 1, h => by
    rw [List.replicate_succ, List.zipWith_cons_cons, UInt8.xor_0,
      zipWith_xor_zeros l (Nat.le_of_succ_le_succ h)]
  | _ :: _, 0, h => absurd h (by simp)

/-- The first bytes of a NUL-padded name, as many as a NUL-terminated name
holds, are that name iff the two names agree. -/
theorem take_padded : ∀ {a b : List UInt8} {n : Nat}, 0 < n → 0 ∉ a → 0 ∉ b →
    ((a ++ List.replicate n 0).take (b.length + 1) = b ++ [0] ↔ a = b)
  | [], [], n + 1, _, _, _ => by simp
  | x :: a, [], _, _, ha, _ => by
    simp only [List.cons_append, List.length_nil, Nat.zero_add, List.take_succ_cons, List.take_zero,
      List.nil_append, List.cons.injEq, and_true, reduceCtorEq, iff_false]
    exact fun hx => ha (hx ▸ List.mem_cons_self _ _)
  | [], y :: b, n + 1, _, _, hb => by
    simp only [List.nil_append, List.replicate_succ, List.length_cons, List.take_succ_cons,
      List.cons_append, List.cons.injEq, reduceCtorEq, iff_false, not_and]
    exact fun hy => absurd (hy ▸ List.mem_cons_self _ _) hb
  | x :: a, y :: b, n, hn, ha, hb => by
    simp only [List.cons_append, List.length_cons, List.take_succ_cons, List.cons.injEq]
    rw [take_padded hn (fun h => ha (List.mem_cons_of_mem _ h))
      (fun h => hb (List.mem_cons_of_mem _ h))]

theorem take_ifnameBytes {a b : List UInt8} (ha : IfName a) (hb : 0 ∉ b) :
    (Packet.ifnameBytes a).take (b ++ [0]).length = b ++ [0] ↔ a = b := by
  rw [List.length_append, List.length_singleton]
  exact take_padded (by have := ha.1; omega) ha.2 hb

/-! ## The expression groups -/

variable (p : Packet)

@[simp] theorem evalExprs_counter (es : List Expr) (reg : List UInt8) :
    evalExprs p (.counter :: es) reg = evalExprs p es reg := rfl

@[simp] theorem evalExprs_verdict (v : Verdict) (es : List Expr) (reg : List UInt8) :
    evalExprs p (.verdict v :: es) reg = some (.verdict v) := rfl

@[simp] theorem evalExprs_masq (es : List Expr) (reg : List UInt8) :
    evalExprs p (.masq :: es) reg = some .masq := rfl

theorem evalExprs_family (isIpv4 : Bool) (es : List Expr) (reg : List UInt8) :
    evalExprs p (Expr.family isIpv4 ++ es) reg =
      if p.isIpv4 = isIpv4 then evalExprs p es (p.load .nfproto) else none := by
  simp only [Expr.family, List.cons_append, List.nil_append, evalExprs, Packet.load, nfproto,
    List.length_singleton]
  cases p.isIpv4 <;> cases isIpv4 <;> simp

theorem evalExprs_iifname {name : String} (hname : 0 ∉ name.toUTF8.data.toList) (es : List Expr)
    (reg : List UInt8) :
    evalExprs p (Expr.ifname .iifname name ++ es) reg =
      if p.iif = name.toUTF8.data.toList then evalExprs p es (p.load .iifname) else none := by
  simp only [Expr.ifname, List.cons_append, List.nil_append, evalExprs, Packet.load]
  exact if_congr (take_ifnameBytes p.iif_name hname) rfl rfl

theorem evalExprs_oifname {name : String} (hname : 0 ∉ name.toUTF8.data.toList) (es : List Expr)
    (reg : List UInt8) :
    evalExprs p (Expr.ifname .oifname name ++ es) reg =
      if p.oif = name.toUTF8.data.toList then evalExprs p es (p.load .oifname) else none := by
  simp only [Expr.ifname, List.cons_append, List.nil_append, evalExprs, Packet.load]
  exact if_congr (take_ifnameBytes p.oif_name hname) rfl rfl

section Family

variable {p} {isIpv4 : Bool} (hf : p.isIpv4 = isIpv4) (d : Dir)
include hf

theorem evalExprs_addr {data : IP} (hd : data.length = addrLen isIpv4) (es : List Expr)
    (reg : List UInt8) :
    evalExprs p (Expr.addr isIpv4 d .eq data ++ es) reg =
      if p.addr d = data then evalExprs p es (p.addr d) else none := by
  simp only [Expr.addr, List.cons_append, List.nil_append, evalExprs, List.append_eq]
  rw [Packet.payload_addr hf, hd, ← hf, ← p.addr_length d, List.take_length]

theorem evalExprs_addr_neq {data : IP} (hd : data.length = addrLen isIpv4) (es : List Expr)
    (reg : List UInt8) :
    evalExprs p (Expr.addr isIpv4 d .neq data ++ es) reg =
      if p.addr d = data then none else evalExprs p es (p.addr d) := by
  simp only [Expr.addr, List.cons_append, List.nil_append, evalExprs, List.append_eq]
  rw [Packet.payload_addr hf, hd, ← hf, ← p.addr_length d, List.take_length]

theorem evalExprs_masked {mask data : List UInt8} (hm : mask.length = addrLen isIpv4)
    (hd : data.length = addrLen isIpv4) (es : List Expr) (reg : List UInt8) :
    evalExprs p (Expr.masked isIpv4 d mask data ++ es) reg =
      if List.zipWith (· &&& ·) (p.addr d) mask = data then
        evalExprs p es (List.zipWith (· &&& ·) (p.addr d) mask)
      else none := by
  have hl : (List.zipWith (· &&& ·) (p.addr d) mask).length = addrLen isIpv4 := by
    rw [List.length_zipWith, p.addr_length, hf, hm, min_self]
  have hx := zipWith_xor_zeros _ hl.le
  simp only [Expr.masked, List.cons_append, List.nil_append, evalExprs, List.append_eq]
  rw [Packet.payload_addr hf, ← hf, ← p.addr_length d, List.take_length, hf, zeroXor, hx, hd,
    ← hl, List.take_length]

end Family

end Router

end Netclient
