import Mathlib.Data.List.Basic
/-!
# Router — addresses, nftables expressions, and the rules the manager builds

The nftables manager builds every rule as a list of expressions over
register 1 — `Meta` and `Payload` loads, a `Bitwise` mask, `Cmp`, then
`Counter` and a verdict or `Masq` — and records it with an iptables-style
spec of words and the key `genRuleKey(spec...)` stored in its `UserData`.

The Go literals repeat a handful of expression groups: the family check, an
interface-name check, an address compared whole, and an address compared
under a mask. Each group is one definition here (`Expr.family`,
`Expr.ifname`, `Expr.addr`, `Expr.masked`), and each rule literal of the
source is the concatenation of its groups, for both families at once
(`isIpv4`), with the spec words, table and chain the source records.
-/

namespace Netclient

namespace Router

/-- A `net.IP`: 4 bytes, or 16 for IPv6 and IPv4-in-IPv6; `nil` is `[]`. -/
abbrev IP := List UInt8

/-- The 12 bytes before an IPv4 address in its 16-byte form. -/
def v4InV6Prefix : List UInt8 := [0, 0, 0, 0, 0, 0, 0, 0, 0, 0, 0xff, 0xff]

/-- `IP.To4`. -/
def IP.to4 (ip : IP) : IP :=
  if ip.length = 4 then ip
  else if ip.length = 16 ∧ ip.take 12 = v4InV6Prefix then ip.drop 12
  else []

/-- `IP.To16`. -/
def IP.to16 (ip : IP) : IP :=
  if ip.length = 4 then v4InV6Prefix ++ ip
  else if ip.length = 16 then ip
  else []

/-- The address as a rule of family `isIpv4` compares it: `To4()` or `To16()`. -/
def IP.toFamily (isIpv4 : Bool) (ip : IP) : IP := if isIpv4 then ip.to4 else ip.to16

/-- A `net.IPNet`. -/
structure IPNet where
  ip : IP
  mask : List UInt8
  deriving DecidableEq, Repr

/-- `net.CIDRMask(ones, bits)`: `ones` one bits, then zeros, in `bits / 8` bytes. -/
def cidrMask (ones bits : Nat) : List UInt8 :=
  (List.range (bits / 8)).map fun i =>
    if ones ≤ 8 * i then 0 else if 8 * (i + 1) ≤ ones then 0xff
    else (0xff : UInt8) <<< (8 - (ones - 8 * i)).toUInt8

/-- `IP.Mask`: the address under the mask, after matching their lengths;
`nil` when they do not match. -/
def IP.applyMask (ip : IP) (mask : List UInt8) : IP :=
  let mask := if mask.length = 16 ∧ ip.length = 4 ∧ mask.take 12 = List.replicate 12 0xff
    then mask.drop 12 else mask
  let ip := if mask.length = 4 ∧ ip.length = 16 ∧ ip.take 12 = v4InV6Prefix then ip.drop 12 else ip
  if ip.length = mask.length then List.zipWith (· &&& ·) ip mask else []

/-- What `net.ParseCIDR` returns on success: the address as written, in its
16-byte form, whether it was written as IPv4 (`Is4`), and the prefix length. -/
structure Cidr where
  ip : IP
  is4 : Bool
  ones : Nat
  ip_length : ip.length = 16
  is4_mapped : is4 = true → ip.take 12 = v4InV6Prefix
  ones_le : ones ≤ if is4 then 32 else 128

/-- The mask `ParseCIDR` returns: `CIDRMask(ones, 8 * iplen)`. -/
def Cidr.mask (c : Cidr) : List UInt8 := cidrMask c.ones (if c.is4 then 32 else 128)

/-- The network `ParseCIDR` returns: the address under the mask. -/
def Cidr.net (c : Cidr) : IPNet := ⟨c.ip.applyMask c.mask, c.mask⟩

/-- A CIDR string of the input, with what `net.ParseCIDR` makes of it. -/
structure CidrText where
  text : String
  parsed : Option Cidr

/-- An address string of the input, with `net.ParseIP` of it (16 bytes, or `nil`). -/
structure IpText where
  text : String
  parsed : IP
  parsed_length : parsed = [] ∨ parsed.length = 16

/-! ## Expressions and rules -/

/-- The `Meta` keys the rules load. -/
inductive MetaKey
  | nfproto
  | iifname
  | oifname
  deriving DecidableEq, Repr

/-- The `Cmp` operators the rules use. -/
inductive CmpOp
  | eq
  | neq
  deriving DecidableEq, Repr

/-- The verdicts the rules end with. -/
inductive Verdict
  | accept
  | drop
  | return
  | jump (chain : String)
  deriving DecidableEq, Repr

/-- An nftables expression, all on register 1. -/
inductive Expr
  | meta (key : MetaKey)
  /-- A `Payload` load from the network header. -/
  | payload (offset len : Nat)
  | bitwise (len : Nat) (mask xor : List UInt8)
  | cmp (op : CmpOp) (data : List UInt8)
  | counter
  | verdict (v : Verdict)
  | masq
  deriving DecidableEq, Repr

/-- An `nftables.Rule` in an `inet` table. -/
structure NfRule where
  table : String
  chain : String
  /-- `UserData`: the rule's key. -/
  key : String
  exprs : List Expr
  deriving DecidableEq, Repr

/-- A `ruleInfo`: the rule, and the spec, table and chain it is recorded with. -/
structure RuleInfo where
  nfRule : NfRule
  rule : List String
  table : String
  chain : String
  egressExtRule : Bool
  deriving DecidableEq, Repr

/-- What the manager's code reads from outside this file: the package's table
and chain names, the netmaker interface, and the calls whose code is not
under `src/`. -/
structure Env where
  defaultIpTable : String
  defaultNatTable : String
  netmakerFilterChain : String
  netmakerNatChain : String
  iptableFWDChain : String
  nattablePRTChain : String
  ingressTable : String
  egressTable : String
  /-- `ncutils.GetInterfaceName()`. -/
  ifaceName : String
  genRuleKey : List String → String
  /-- `(*net.IPNet).String()`. -/
  ipNetString : IPNet → String
  isAddrIpv4 : String → Bool
  /-- `netip.ParsePrefix(s)`, then `prefix.Addr().Unmap().Is6()`; `none` on a parse error. -/
  prefixIs6 : String → Option Bool
  /-- `getInterfaceName(config.ToIPNet(s))`; `none` on an error. -/
  routeIface : String → Option String

/-- An environment for concrete runs: netclient's table and chain names, an
interface `netmaker` and one uplink `eth0`, `genRuleKey` joining the words
with colons, and dotted addresses with their prefix length, the count of
ones in the mask. -/
def Env.sample : Env where
  defaultIpTable := "filter"
  defaultNatTable := "nat"
  netmakerFilterChain := "netmakerfilter"
  netmakerNatChain := "netmakernat"
  iptableFWDChain := "FORWARD"
  nattablePRTChain := "POSTROUTING"
  ingressTable := "ingress"
  egressTable := "egress"
  ifaceName := "netmaker"
  genRuleKey := ":".intercalate
  ipNetString n := ".".intercalate (n.ip.map fun b => toString b.toNat) ++ "/" ++
    toString (n.mask.flatMap fun b => (List.range 8).filter b.toNat.testBit).length
  isAddrIpv4 s := s.any (· == '.')
  prefixIs6 s := some !(s.any (· == '.'))
  routeIface _ := some "eth0"

/-! ## The expression groups -/

/-- `unix.NFPROTO_IPV4` or `unix.NFPROTO_IPV6`. -/
def nfproto (isIpv4 : Bool) : UInt8 := if isIpv4 then 2 else 10

/-- Which address of the header a group loads. -/
inductive Dir
  | src
  | dst
  deriving DecidableEq, Repr

/-- `ipv4SrcOffset`, `ipv4DestOffset`, `ipv6SrcOffset`, `ipv6DestOffset`. -/
def addrOffset : Bool → Dir → Nat
  | true, .src => 12
  | true, .dst => 16
  | false, .src => 8
  | false, .dst => 24

/-- `ipv4Len` or `ipv6Len`. -/
def addrLen (isIpv4 : Bool) : Nat := if isIpv4 then 4 else 16

/-- `zeroXor` or `zeroXor6`. -/
def zeroXor (isIpv4 : Bool) : List UInt8 := List.replicate (addrLen isIpv4) 0

namespace Expr

/-- `Meta NFPROTO; Cmp ==`. -/
def family (isIpv4 : Bool) : List Expr := [.meta .nfproto, .cmp .eq [nfproto isIpv4]]

/-- `Meta IIFNAME` or `OIFNAME`; `Cmp == name + "\x00"`. -/
def ifname (k : MetaKey) (name : String) : List Expr :=
  [.meta k, .cmp .eq (name.toUTF8.data.toList ++ [0])]

/-- `Payload` of the address at `d`; `Cmp op data`. -/
def addr (isIpv4 : Bool) (d : Dir) (op : CmpOp) (data : IP) : List Expr :=
  [.payload (addrOffset isIpv4 d) (addrLen isIpv4), .cmp op data]

/-- `Payload` of the address at `d`; `Bitwise` under `mask`; `Cmp == data`. -/
def masked (isIpv4 : Bool) (d : Dir) (mask data : List UInt8) : List Expr :=
  [.payload (addrOffset isIpv4 d) (addrLen isIpv4),
    .bitwise (addrLen isIpv4) mask (zeroXor isIpv4), .cmp .eq data]

end Expr

/-- The other address of the header. -/
def Dir.flip : Dir → Dir
  | .src => .dst
  | .dst => .src

/-- The spec word for an address at `d`. -/
def Dir.flag : Dir → String
  | .src => "-s"
  | .dst => "-d"

/-! ## The rules -/

section Builders

variable (E : Env) (isIpv4 : Bool)

/-- A rule of the filter table's netmaker chain. -/
def filterRule (spec : List String) (exprs : List Expr) (egressExtRule : Bool) : RuleInfo :=
  ⟨⟨E.defaultIpTable, E.netmakerFilterChain, E.genRuleKey spec, exprs⟩, spec,
    E.defaultIpTable, E.netmakerFilterChain, egressExtRule⟩

/-- `InsertEgressRoutingRules`, the jump rule of egress range `range`. -/
def egressGwJumpRule (range : String) (c : Cidr) : RuleInfo :=
  let spec := ["-i", E.ifaceName, "-d", range, "-j", E.netmakerFilterChain]
  ⟨⟨E.defaultIpTable, E.iptableFWDChain, E.genRuleKey spec,
    Expr.family isIpv4 ++ Expr.ifname .iifname E.ifaceName ++
      Expr.masked isIpv4 .dst c.net.mask (c.ip.toFamily isIpv4) ++
      [.counter, .verdict (.jump E.netmakerFilterChain)]⟩,
    spec, E.defaultIpTable, E.iptableFWDChain, false⟩

/-- `InsertEgressRoutingRules`, the MASQUERADE rule of the gateway's network
at `d` out of `iface`. -/
def egressNatRule (network : IPNet) (iface : String) (d : Dir) : RuleInfo :=
  let spec := [d.flag, E.ipNetString network, "-o", iface, "-j", "MASQUERADE"]
  ⟨⟨E.defaultNatTable, E.nattablePRTChain, E.genRuleKey spec,
    Expr.family isIpv4 ++ Expr.ifname .oifname iface ++
      Expr.masked isIpv4 d network.mask (network.ip.toFamily isIpv4) ++ [.counter, .masq]⟩,
    spec, E.defaultNatTable, E.nattablePRTChain, false⟩

/-- `InsertEgressRoutingRules` and `AddEgressRoutingRule`, the ACCEPT rule from
gateway peer address `peer` to egress range `range`. -/
def egressPeerRule (peer : IPNet) (range : String) (c : Cidr) : RuleInfo :=
  filterRule E ["-s", E.ipNetString peer, "-d", range, "-j", "ACCEPT"]
    (Expr.family isIpv4 ++ Expr.addr isIpv4 .src .eq (peer.ip.toFamily isIpv4) ++
      Expr.masked isIpv4 .dst c.net.mask (c.ip.toFamily isIpv4) ++ [.counter, .verdict .accept])
    false

/-- `AddIngressRoutingRule`, the ACCEPT rule from ext client `extPeerAddr` to peer `peer`. -/
def ingressPeerRule (extPeerAddr : IpText) (peer : IPNet) : RuleInfo :=
  filterRule E ["-s", extPeerAddr.text, "-d", E.ipNetString peer, "-j", "ACCEPT"]
    (Expr.family isIpv4 ++ Expr.addr isIpv4 .src .eq (extPeerAddr.parsed.toFamily isIpv4) ++
      Expr.addr isIpv4 .dst .eq (peer.ip.toFamily isIpv4) ++ [.counter, .verdict .accept])
    false

/-- `InsertIngressRoutingRules`, `fwdJumpRule`: from the ext client, not to the
ingress gateway, into the netmaker chain. -/
def extFwdJumpRule (ext ingGw : IPNet) : RuleInfo :=
  let spec := ["-s", E.ipNetString ext, "!", "-d", E.ipNetString ingGw, "-j", E.netmakerFilterChain]
  ⟨⟨E.defaultIpTable, E.iptableFWDChain, E.genRuleKey spec,
    Expr.family isIpv4 ++ Expr.addr isIpv4 .src .eq (ext.ip.toFamily isIpv4) ++
      Expr.addr isIpv4 .dst .neq (ingGw.ip.toFamily isIpv4) ++
      [.counter, .verdict (.jump E.netmakerFilterChain)]⟩,
    spec, E.defaultIpTable, E.iptableFWDChain, false⟩

/-- `InsertIngressRoutingRules`, the ACCEPT rule from the network to the ext client. -/
def extNetworkRule (network ext : IPNet) : RuleInfo :=
  filterRule E ["-s", E.ipNetString network, "-d", E.ipNetString ext, "-j", "ACCEPT"]
    (Expr.family isIpv4 ++ Expr.addr isIpv4 .dst .eq (ext.ip.toFamily isIpv4) ++
      [.counter, .verdict .accept])
    false

/-- `InsertIngressRoutingRules`, the ACCEPT rule from the ext client to peer `peer`. -/
def extPeerRule (ext peer : IPNet) : RuleInfo :=
  filterRule E ["-s", E.ipNetString ext, "-d", E.ipNetString peer, "-j", "ACCEPT"]
    (Expr.family isIpv4 ++ Expr.addr isIpv4 .src .eq (ext.ip.toFamily isIpv4) ++
      Expr.addr isIpv4 .dst .eq (peer.ip.toFamily isIpv4) ++ [.counter, .verdict .accept])
    false

/-- `InsertIngressRoutingRules` and `RefreshEgressRangesOnIngressGw`, the ACCEPT
rule between the ext client and egress range `range`, the range at `d`. -/
def extRangeRule (ext : IPNet) (range : String) (c : Cidr) (d : Dir) : RuleInfo :=
  filterRule E (match d with
      | .dst => ["-s", E.ipNetString ext, "-d", range, "-j", "ACCEPT"]
      | .src => ["-s", range, "-d", E.ipNetString ext, "-j", "ACCEPT"])
    (Expr.family isIpv4 ++ Expr.addr isIpv4 d.flip .eq (ext.ip.toFamily isIpv4) ++
      Expr.masked isIpv4 d c.net.mask (c.ip.toFamily isIpv4) ++ [.counter, .verdict .accept])
    true

/-- `InsertIngressRoutingRules`, the MASQUERADE rule of the ext client at `d`
out of the netmaker interface. -/
def extMasqRule (ext : IPNet) (d : Dir) : RuleInfo :=
  let spec := [d.flag, E.ipNetString ext, "-o", E.ifaceName, "-j", "MASQUERADE"]
  ⟨⟨E.defaultNatTable, E.netmakerNatChain, E.genRuleKey spec,
    Expr.family isIpv4 ++ Expr.addr isIpv4 d .eq (ext.ip.toFamily isIpv4) ++
      Expr.ifname .oifname E.ifaceName ++ [.counter, .masq]⟩,
    spec, E.defaultNatTable, E.netmakerNatChain, false⟩

/-- `nfFilterJumpRules`. The third is put in the FORWARD chain and recorded in
the netmaker chain. -/
def nfFilterJumpRules : List RuleInfo :=
  let jump (spec : List String) (chain : String) (v : Verdict) : RuleInfo :=
    ⟨⟨E.defaultIpTable, chain, E.genRuleKey spec,
      Expr.ifname .iifname E.ifaceName ++ [.counter, .verdict v]⟩,
      spec, E.defaultIpTable, E.netmakerFilterChain, false⟩
  [jump ["-i", E.ifaceName, "-j", "DROP"] E.netmakerFilterChain .drop,
    jump ["-i", E.ifaceName, "-j", "RETURN"] E.netmakerFilterChain .return,
    jump ["-i", E.ifaceName, "-j", E.netmakerFilterChain] E.iptableFWDChain
      (.jump E.netmakerFilterChain)]

/-- `nfNatJumpRules`. -/
def nfNatJumpRules : List RuleInfo :=
  [⟨⟨E.defaultNatTable, E.nattablePRTChain, E.genRuleKey ["-o", E.ifaceName, "-j", E.netmakerNatChain],
      Expr.ifname .oifname E.ifaceName ++ [.counter, .verdict (.jump E.netmakerNatChain)]⟩,
      ["-o", E.ifaceName, "-j", E.netmakerNatChain], E.defaultNatTable, E.nattablePRTChain, false⟩,
    ⟨⟨E.defaultNatTable, E.netmakerNatChain, E.genRuleKey ["-j", "RETURN"],
      [.counter, .verdict .return]⟩,
      ["-j", "RETURN"], E.defaultNatTable, E.netmakerNatChain, false⟩]

end Builders

end Router

end Netclient
