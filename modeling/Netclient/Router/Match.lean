import Netclient.Router.Eval
import Mathlib.Tactic.FinCases
/-!
# Router — the rules against the specs they are recorded with

Every rule the manager builds is recorded with an iptables-style spec:
`-s A` and `-d A` (the source or destination address is in `A`), `-i I` and
`-o I` (the packet comes in or goes out on device `I`), each negated by a
`!` before it, and `-j T`, the target. `specEval` reads such a spec, each
address word as the network iptables makes of it (`read`); `Site` lists
every rule the manager builds, with the inputs it is built from, and
`Site.Reads` says that `read` reads each of the rule's address words as the
input it was printed from.

The `ACCEPT` rule from an ext client's network to the ext client is
recorded as `-s network -d ext`, as every sibling rule is recorded with the
addresses it loads, but its expressions load no source address: it accepts
every packet to the ext client, from inside the network or not
(`network_rule_ignores_source`). Every other rule reaches its verdict
exactly on the packets its spec describes (`built_rules_match`), when its
inputs are canonical: every address it compares whole a host of the rule's
family, every range and network of the rule's family without host bits (a
range written with host bits is compared, under its mask, with the address
as written, and so matches nothing; an address of the other family is
compared in the rule's), the jumped-to chains not named like iptables'
targets, and the interface names free of NUL.
-/

namespace Netclient

namespace Router

/-! ## What the spec's words name -/

/-- A network as an address word names it: its family, its address as
written, and its mask. -/
structure Net where
  isIpv4 : Bool
  ip : IP
  mask : List UInt8
  deriving DecidableEq, Repr

namespace Net

/-- Modelled from the spec: whether address `a` of a packet of family `isIpv4`
is in the network, as `IPNet.Contains` decides it: the same family and length,
and the address equal to the network's under the mask. -/
def contains (n : Net) (isIpv4 : Bool) (a : IP) : Bool :=
  n.isIpv4 == isIpv4 && a.length == n.mask.length && n.ip.length == n.mask.length &&
    List.zipWith (· &&& ·) a n.mask == List.zipWith (· &&& ·) n.ip n.mask

/-- The single address `ip` of family `isIpv4`. -/
def host (isIpv4 : Bool) (ip : IP) : Net := ⟨isIpv4, ip, List.replicate (addrLen isIpv4) 255⟩

end Net

/-- Modelled from the spec: `networkNumberAndMask`, the address in its 4-byte
form when it has one, and the mask cut to match. `IPNet.String` prints the
two, and iptables reads them back from the text; `none` for a malformed net.
-/
def IPNet.asNet (n : IPNet) : Option Net :=
  let ip := if n.ip.to4 = [] then n.ip else n.ip.to4
  if n.ip.to4 = [] ∧ n.ip.length ≠ 16 then none
  else if n.mask.length = 4 then
    if ip.length = 4 then some ⟨true, ip, n.mask⟩ else none
  else if n.mask.length = 16 then
    if ip.length = 4 then some ⟨true, ip, n.mask.drop 12⟩ else some ⟨false, ip, n.mask⟩
  else none

/-- Modelled from the spec: the network a CIDR text names: the address as
written, in the family it was written in, under the prefix's mask. -/
def Cidr.asNet (c : Cidr) : Net := ⟨c.is4, if c.is4 then c.ip.drop 12 else c.ip, c.mask⟩

/-- Modelled from the spec: the host an address text names, in the family of
its 4-byte form when it has one; `none` when it does not parse. -/
def IpText.asNet (a : IpText) : Option Net :=
  if a.parsed = [] then none
  else if a.parsed.to4 = [] then some (Net.host false a.parsed)
  else some (Net.host true a.parsed.to4)

/-- `n` names the single address of family `isIpv4` that a rule compares. -/
def IPNet.IsHost (isIpv4 : Bool) (n : IPNet) : Prop :=
  n.asNet = some (Net.host isIpv4 (n.ip.toFamily isIpv4))

/-- `a` names the single address of family `isIpv4` that a rule compares. -/
def IpText.IsHost (isIpv4 : Bool) (a : IpText) : Prop :=
  a.asNet = some (Net.host isIpv4 (a.parsed.toFamily isIpv4))

/-- `n` is a network of family `isIpv4`, its mask of the family's length and
its address without host bits. -/
def IPNet.IsNetwork (isIpv4 : Bool) (n : IPNet) : Prop :=
  n.asNet = some ⟨isIpv4, n.ip.toFamily isIpv4, n.mask⟩ ∧
    List.zipWith (· &&& ·) (n.ip.toFamily isIpv4) n.mask = n.ip.toFamily isIpv4

/-- `c` is a range of family `isIpv4` written without host bits. -/
def Cidr.IsCanonical (isIpv4 : Bool) (c : Cidr) : Prop :=
  c.is4 = isIpv4 ∧ List.zipWith (· &&& ·) (c.ip.toFamily isIpv4) c.mask = c.ip.toFamily isIpv4

/-! ## The spec's reading -/

/-- Modelled from the spec: the target a `-j` word names — iptables' `ACCEPT`,
`DROP`, `RETURN` and `MASQUERADE`, or a jump to the chain of that name. -/
def Target.ofName : String → Target
  | "ACCEPT" => .verdict .accept
  | "DROP" => .verdict .drop
  | "RETURN" => .verdict .return
  | "MASQUERADE" => .masq
  | chain => .verdict (.jump chain)

@[simp] theorem Target.ofName_accept : Target.ofName "ACCEPT" = .verdict .accept := rfl

@[simp] theorem Target.ofName_drop : Target.ofName "DROP" = .verdict .drop := rfl

@[simp] theorem Target.ofName_return : Target.ofName "RETURN" = .verdict .return := rfl

@[simp] theorem Target.ofName_masquerade : Target.ofName "MASQUERADE" = .masq := rfl

/-- Modelled from the spec: whether the packet's address at `d` is in the
network the word `a` names. -/
def addrIn (read : String → Option Net) (p : Packet) (d : Dir) (a : String) : Bool :=
  match read a with
  | some n => n.contains p.isIpv4 (p.addr d)
  | none => false

/-- Modelled from the spec: whether the packet meets the condition a flag
word puts on the word after it — `-s A` and `-d A`, the source or destination
address is in `A`; `-i I` and `-o I`, the packet comes in or goes out on
device `I` — and `none` for a word that is no condition's flag. -/
def flagHolds (read : String → Option Net) (p : Packet) (flag a : String) : Option Bool :=
  if flag = "-s" then some (addrIn read p .src a)
  else if flag = "-d" then some (addrIn read p .dst a)
  else if flag = "-i" then some (p.iif == a.toUTF8.data.toList)
  else if flag = "-o" then some (p.oif == a.toUTF8.data.toList)
  else none

section Flags

variable (read : String → Option Net) (p : Packet) (a : String)

@[simp] theorem flagHolds_src : flagHolds read p "-s" a = some (addrIn read p .src a) := rfl

@[simp] theorem flagHolds_dst : flagHolds read p "-d" a = some (addrIn read p .dst a) := rfl

@[simp] theorem flagHolds_iif :
    flagHolds read p "-i" a = some (p.iif == a.toUTF8.data.toList) := rfl

@[simp] theorem flagHolds_oif :
    flagHolds read p "-o" a = some (p.oif == a.toUTF8.data.toList) := rfl

end Flags

/-- Modelled from the spec: an iptables-style rule spec read word by word,
conditions (each negated by a `!` before it) up to `-j` and its target. The
target when the packet meets every condition; `none` when it fails one or
the words do not read. -/
def specEval (read : String → Option Net) (p : Packet) : List String → Option Target
  | "!" :: flag :: a :: ws =>
    if flagHolds read p flag a = some false then specEval read p ws else none
  | "-j" :: t :: _ => some (Target.ofName t)
  | flag :: a :: ws => if flagHolds read p flag a = some true then specEval read p ws else none
  | _ => none

/-! ## The rules the manager builds -/

/-- Every rule the manager builds, with the inputs it is built from: the
static jump rules, and each builder's rule for every family, address, CIDR
range and interface name. -/
inductive Site
  | filterJump (i : Fin 3)
  | natJump (i : Fin 2)
  | egressGwJump (isIpv4 : Bool) (range : String) (c : Cidr)
  | egressNat (isIpv4 : Bool) (network : IPNet) (iface : String) (d : Dir)
  | egressPeer (isIpv4 : Bool) (peer : IPNet) (range : String) (c : Cidr)
  | ingressPeer (isIpv4 : Bool) (extPeerAddr : IpText) (peer : IPNet)
  | extFwdJump (isIpv4 : Bool) (ext ingGw : IPNet)
  | extNetwork (isIpv4 : Bool) (network ext : IPNet)
  | extPeer (isIpv4 : Bool) (ext peer : IPNet)
  | extRange (isIpv4 : Bool) (ext : IPNet) (range : String) (c : Cidr) (d : Dir)
  | extMasq (isIpv4 : Bool) (ext : IPNet) (d : Dir)

namespace Site

/-- The rule built at the site. -/
def rule (E : Env) : Site → RuleInfo
  | .filterJump i => (nfFilterJumpRules E).get ⟨i, i.2⟩
  | .natJump i => (nfNatJumpRules E).get ⟨i, i.2⟩
  | .egressGwJump f range c => egressGwJumpRule E f range c
  | .egressNat f network iface d => egressNatRule E f network iface d
  | .egressPeer f peer range c => egressPeerRule E f peer range c
  | .ingressPeer f a peer => ingressPeerRule E f a peer
  | .extFwdJump f ext ingGw => extFwdJumpRule E f ext ingGw
  | .extNetwork f network ext => extNetworkRule E f network ext
  | .extPeer f ext peer => extPeerRule E f ext peer
  | .extRange f ext range c d => extRangeRule E f ext range c d
  | .extMasq f ext d => extMasqRule E f ext d

/-- `read` reads each address word of the site's spec as the input it was
printed from. -/
def Reads (E : Env) (read : String → Option Net) : Site → Prop
  | .filterJump _ | .natJump _ => True
  | .egressGwJump _ range c => read range = some c.asNet
  | .egressNat _ network _ _ => read (E.ipNetString network) = network.asNet
  | .egressPeer _ peer range c =>
    read (E.ipNetString peer) = peer.asNet ∧ read range = some c.asNet
  | .ingressPeer _ a peer => read a.text = a.asNet ∧ read (E.ipNetString peer) = peer.asNet
  | .extFwdJump _ ext ingGw =>
    read (E.ipNetString ext) = ext.asNet ∧ read (E.ipNetString ingGw) = ingGw.asNet
  | .extNetwork _ network ext =>
    read (E.ipNetString network) = network.asNet ∧ read (E.ipNetString ext) = ext.asNet
  | .extPeer _ ext peer =>
    read (E.ipNetString ext) = ext.asNet ∧ read (E.ipNetString peer) = peer.asNet
  | .extRange _ ext range c _ => read (E.ipNetString ext) = ext.asNet ∧ read range = some c.asNet
  | .extMasq _ ext _ => read (E.ipNetString ext) = ext.asNet

/-- The inputs are of the rule's family: every address the rule compares
whole is a host, every range and network has no host bits, and the egress
interface's name has no NUL byte. -/
def Canonical : Site → Prop
  | .filterJump _ | .natJump _ => True
  | .egressGwJump f _ c => c.IsCanonical f
  | .egressNat f network iface _ => network.IsNetwork f ∧ 0 ∉ iface.toUTF8.data.toList
  | .egressPeer f peer _ c => peer.IsHost f ∧ c.IsCanonical f
  | .ingressPeer f a peer => a.IsHost f ∧ peer.IsHost f
  | .extFwdJump f ext ingGw => ext.IsHost f ∧ ingGw.IsHost f
  | .extNetwork f _ ext => ext.IsHost f
  | .extPeer f ext peer => ext.IsHost f ∧ peer.IsHost f
  | .extRange f ext _ c _ => ext.IsHost f ∧ c.IsCanonical f
  | .extMasq f ext _ => ext.IsHost f

/-- The ext client's network rule, whose spec names a source it does not check. -/
def isExtNetwork : Site → Bool
  | .extNetwork .. => true
  | _ => false

end Site

/-- The chains the rules jump to are not named like iptables' targets, and
the netmaker interface's name has no NUL byte. -/
def Env.Tame (E : Env) : Prop :=
  (∀ c ∈ [E.netmakerFilterChain, E.netmakerNatChain], Target.ofName c = .verdict (.jump c)) ∧
    0 ∉ E.ifaceName.toUTF8.data.toList

/-! ## Reading an address word -/

theorem IP.to4_length (ip : IP) : ip.to4 = [] ∨ ip.to4.length = 4 := by
  unfold IP.to4
  split_ifs <;> simp_all

/-- `networkNumberAndMask` gives an address and a mask of its family's length. -/
theorem IPNet.asNet_length {n : IPNet} {net : Net} (h : n.asNet = some net) :
    net.ip.length = addrLen net.isIpv4 ∧ net.mask.length = addrLen net.isIpv4 := by
  unfold IPNet.asNet at h
  rcases IP.to4_length n.ip with h4 | h4
  · simp only [h4, if_true, true_and, ite_not] at h
    split at h
    · rename_i h16
      simp only [h16, Nat.reduceEqDiff, if_false] at h
      split at h
      · cases h
      · split at h
        · cases h; exact ⟨h16, ‹_›⟩
        · cases h
    · cases h
  · have h0 : n.ip.to4 ≠ [] := fun h0 => by simp [h0] at h4
    simp only [h0, if_false, false_and] at h
    split_ifs at h <;> cases h <;> simp only [addrLen, List.length_drop, if_true] <;> omega

theorem IPNet.IsHost.length {f : Bool} {n : IPNet} (h : n.IsHost f) :
    (n.ip.toFamily f).length = addrLen f :=
  (IPNet.asNet_length h).1

theorem IPNet.IsNetwork.length {f : Bool} {n : IPNet} (h : n.IsNetwork f) :
    (n.ip.toFamily f).length = addrLen f ∧ n.mask.length = addrLen f :=
  IPNet.asNet_length h.1

theorem IpText.IsHost.length {f : Bool} {a : IpText} (h : a.IsHost f) :
    (a.parsed.toFamily f).length = addrLen f := by
  unfold IpText.IsHost IpText.asNet at h
  split_ifs at h with h0 h4 <;>
    simp only [reduceCtorEq, Option.some.injEq, Net.host, Net.mk.injEq] at h <;>
    obtain ⟨rfl, hip, -⟩ := h <;> rw [← hip]
  · exact a.parsed_length.resolve_left h0
  · exact (IP.to4_length a.parsed).resolve_left h4

theorem Cidr.mask_length (c : Cidr) : c.mask.length = addrLen c.is4 := by
  unfold Cidr.mask cidrMask
  cases c.is4 <;> simp [addrLen]

theorem Cidr.IsCanonical.asNet {f : Bool} {c : Cidr} (h : c.IsCanonical f) :
    c.asNet = ⟨f, c.ip.toFamily f, c.mask⟩ := by
  obtain ⟨rfl, -⟩ := h
  have hl := c.ip_length
  have hm := c.is4_mapped
  unfold Cidr.asNet IP.toFamily IP.to4 IP.to16
  cases h4 : c.is4 <;> simp_all

/-- Whether an address is in a network without host bits, in the network's
family: its address under the mask is the network's. -/
theorem Net.contains_eq {n : Net} (hip : n.ip.length = addrLen n.isIpv4)
    (hm : n.mask.length = addrLen n.isIpv4) (hcan : List.zipWith (· &&& ·) n.ip n.mask = n.ip)
    {g : Bool} {a : IP} (ha : a.length = addrLen g) :
    n.contains g a = (n.isIpv4 == g && List.zipWith (· &&& ·) a n.mask == n.ip) := by
  unfold Net.contains
  rw [hcan]
  cases h : n.isIpv4 == g
  · rfl
  · obtain rfl := beq_iff_eq.1 h
    simp [ha, hip, hm]

theorem addrIn_of_read {read : String → Option Net} {w : String} {n : Net} (hr : read w = some n)
    (hip : n.ip.length = addrLen n.isIpv4) (hm : n.mask.length = addrLen n.isIpv4)
    (hcan : List.zipWith (· &&& ·) n.ip n.mask = n.ip) (p : Packet) (d : Dir) :
    addrIn read p d w =
      (n.isIpv4 == p.isIpv4 && List.zipWith (· &&& ·) (p.addr d) n.mask == n.ip) := by
  unfold addrIn
  rw [hr]
  exact Net.contains_eq hip hm hcan (p.addr_length d)

theorem addrIn_host {read : String → Option Net} {w : String} {f : Bool} {ip : IP}
    (hr : read w = some (Net.host f ip)) (hip : ip.length = addrLen f) (p : Packet) (d : Dir) :
    addrIn read p d w = (f == p.isIpv4 && p.addr d == ip) := by
  have hcan : List.zipWith (· &&& ·) ip (List.replicate (addrLen f) 255) = ip := by
    rw [← hip]
    exact zipWith_and_ones ip
  rw [addrIn_of_read hr hip (List.length_replicate _ _) hcan]
  simp only [Net.host]
  cases h : f == p.isIpv4
  · rfl
  · obtain rfl := beq_iff_eq.1 h
    rw [← p.addr_length d, zipWith_and_ones]

theorem Cidr.IsCanonical.length {f : Bool} {c : Cidr} (h : c.IsCanonical f) :
    (c.ip.toFamily f).length = addrLen f ∧ c.mask.length = addrLen f := by
  have ha := h.asNet
  obtain ⟨rfl, -⟩ := h
  refine ⟨?_, c.mask_length⟩
  unfold Cidr.asNet at ha
  simp only [Net.mk.injEq, true_and] at ha
  rw [← ha.1]
  cases c.is4 <;> simp [c.ip_length, addrLen]

theorem addrIn_cidr {read : String → Option Net} {w : String} {f : Bool} {c : Cidr}
    (hr : read w = some c.asNet) (hc : c.IsCanonical f) (p : Packet) (d : Dir) :
    addrIn read p d w =
      (f == p.isIpv4 && List.zipWith (· &&& ·) (p.addr d) c.mask == c.ip.toFamily f) := by
  rw [hc.asNet] at hr
  exact addrIn_of_read hr hc.length.1 hc.length.2 hc.2 p d

theorem addrIn_network {read : String → Option Net} {w : String} {f : Bool} {n : IPNet}
    (hr : read w = n.asNet) (hn : n.IsNetwork f) (p : Packet) (d : Dir) :
    addrIn read p d w =
      (f == p.isIpv4 && List.zipWith (· &&& ·) (p.addr d) n.mask == n.ip.toFamily f) :=
  addrIn_of_read (hr.trans hn.1) hn.length.1 hn.length.2 hn.2 p d

theorem Env.Tame.filterChain {E : Env} (hE : E.Tame) :
    Target.ofName E.netmakerFilterChain = .verdict (.jump E.netmakerFilterChain) :=
  hE.1 _ (List.mem_cons_self _ _)

theorem Env.Tame.natChain {E : Env} (hE : E.Tame) :
    Target.ofName E.netmakerNatChain = .verdict (.jump E.netmakerNatChain) :=
  hE.1 _ (List.mem_cons_of_mem _ (List.mem_cons_self _ _))

/-! ## Each rule against its spec -/

/-- Two checks that each end the rule unmatched can be made in either order. -/
theorem ite_ite_none {α : Type} (a b : Prop) [Decidable a] [Decidable b] (x : Option α) :
    (if a then (if b then x else none) else none) =
      if b then (if a then x else none) else none := by
  by_cases a <;> by_cases b <;> simp_all

section Builders

variable (E : Env) (read : String → Option Net) (p : Packet) (f : Bool)

theorem extPeerRule_matches {ext peer : IPNet} (hr₁ : read (E.ipNetString ext) = ext.asNet)
    (hr₂ : read (E.ipNetString peer) = peer.asNet) (h₁ : ext.IsHost f) (h₂ : peer.IsHost f) :
    evalExprs p (extPeerRule E f ext peer).nfRule.exprs [] =
      specEval read p (extPeerRule E f ext peer).rule := by
  simp only [extPeerRule, filterRule, List.append_assoc, evalExprs_family, specEval,
    flagHolds_src, flagHolds_dst, addrIn_host (hr₁.trans h₁) h₁.length,
    addrIn_host (hr₂.trans h₂) h₂.length]
  by_cases hf : p.isIpv4 = f
  · rw [if_pos hf, evalExprs_addr hf .src h₁.length, evalExprs_addr hf .dst h₂.length]
    simp [hf]
  · simp [hf, Ne.symm hf]

theorem ingressPeerRule_matches {a : IpText} {peer : IPNet} (hr₁ : read a.text = a.asNet)
    (hr₂ : read (E.ipNetString peer) = peer.asNet) (h₁ : a.IsHost f) (h₂ : peer.IsHost f) :
    evalExprs p (ingressPeerRule E f a peer).nfRule.exprs [] =
      specEval read p (ingressPeerRule E f a peer).rule := by
  simp only [ingressPeerRule, filterRule, List.append_assoc, evalExprs_family, specEval,
    flagHolds_src, flagHolds_dst, addrIn_host (hr₁.trans h₁) h₁.length,
    addrIn_host (hr₂.trans h₂) h₂.length]
  by_cases hf : p.isIpv4 = f
  · rw [if_pos hf, evalExprs_addr hf .src h₁.length, evalExprs_addr hf .dst h₂.length]
    simp [hf]
  · simp [hf, Ne.symm hf]

theorem extFwdJumpRule_matches (hE : E.Tame) {ext ingGw : IPNet}
    (hr₁ : read (E.ipNetString ext) = ext.asNet)
    (hr₂ : read (E.ipNetString ingGw) = ingGw.asNet) (h₁ : ext.IsHost f) (h₂ : ingGw.IsHost f) :
    evalExprs p (extFwdJumpRule E f ext ingGw).nfRule.exprs [] =
      specEval read p (extFwdJumpRule E f ext ingGw).rule := by
  simp only [extFwdJumpRule, List.append_assoc, evalExprs_family, specEval, flagHolds_src,
    flagHolds_dst, hE.filterChain, addrIn_host (hr₁.trans h₁) h₁.length,
    addrIn_host (hr₂.trans h₂) h₂.length]
  by_cases hf : p.isIpv4 = f
  · rw [if_pos hf, evalExprs_addr hf .src h₁.length, evalExprs_addr_neq hf .dst h₂.length]
    simp [hf]
  · simp [hf, Ne.symm hf]

/-- The network rule checks only the packet's family and its destination,
and accepts exactly when the destination is the ext client. -/
theorem extNetworkRule_eval {network ext : IPNet}
    (hr : read (E.ipNetString ext) = ext.asNet) (h : ext.IsHost f) :
    evalExprs p (extNetworkRule E f network ext).nfRule.exprs [] =
      if addrIn read p .dst (E.ipNetString ext) then some (.verdict .accept) else none := by
  simp only [extNetworkRule, filterRule, List.append_assoc, evalExprs_family,
    addrIn_host (hr.trans h) h.length]
  by_cases hf : p.isIpv4 = f
  · rw [if_pos hf, evalExprs_addr hf .dst h.length]
    simp [hf]
  · simp [hf, Ne.symm hf]

theorem egressPeerRule_matches {peer : IPNet} {range : String} {c : Cidr}
    (hr₁ : read (E.ipNetString peer) = peer.asNet) (hr₂ : read range = some c.asNet)
    (h₁ : peer.IsHost f) (h₂ : c.IsCanonical f) :
    evalExprs p (egressPeerRule E f peer range c).nfRule.exprs [] =
      specEval read p (egressPeerRule E f peer range c).rule := by
  simp only [egressPeerRule, filterRule, Cidr.net, List.append_assoc, evalExprs_family, specEval,
    flagHolds_src, flagHolds_dst, addrIn_host (hr₁.trans h₁) h₁.length, addrIn_cidr hr₂ h₂]
  by_cases hf : p.isIpv4 = f
  · rw [if_pos hf, evalExprs_addr hf .src h₁.length,
      evalExprs_masked hf .dst h₂.length.2 h₂.length.1]
    simp [hf]
  · simp [hf, Ne.symm hf]

theorem extRangeRule_matches {ext : IPNet} {range : String} {c : Cidr} (d : Dir)
    (hr₁ : read (E.ipNetString ext) = ext.asNet) (hr₂ : read range = some c.asNet)
    (h₁ : ext.IsHost f) (h₂ : c.IsCanonical f) :
    evalExprs p (extRangeRule E f ext range c d).nfRule.exprs [] =
      specEval read p (extRangeRule E f ext range c d).rule := by
  simp only [extRangeRule, filterRule, Cidr.net, List.append_assoc, evalExprs_family]
  by_cases hf : p.isIpv4 = f
  · rw [if_pos hf, evalExprs_addr hf _ h₁.length,
      evalExprs_masked hf d h₂.length.2 h₂.length.1]
    cases d <;> simp [hf, specEval, Dir.flip, addrIn_host (hr₁.trans h₁) h₁.length,
      addrIn_cidr hr₂ h₂, ite_ite_none]
  · cases d <;> simp [hf, Ne.symm hf, specEval, addrIn_host (hr₁.trans h₁) h₁.length,
      addrIn_cidr hr₂ h₂]

theorem egressGwJumpRule_matches (hE : E.Tame) {range : String} {c : Cidr}
    (hr : read range = some c.asNet) (h : c.IsCanonical f) :
    evalExprs p (egressGwJumpRule E f range c).nfRule.exprs [] =
      specEval read p (egressGwJumpRule E f range c).rule := by
  simp only [egressGwJumpRule, Cidr.net, List.append_assoc, evalExprs_family,
    evalExprs_iifname p hE.2, specEval, flagHolds_iif, flagHolds_dst, hE.filterChain,
    addrIn_cidr hr h]
  by_cases hf : p.isIpv4 = f
  · rw [if_pos hf, evalExprs_masked hf .dst h.length.2 h.length.1]
    simp [hf]
  · simp [hf, Ne.symm hf]

theorem egressNatRule_matches {network : IPNet} {iface : String} (d : Dir)
    (hr : read (E.ipNetString network) = network.asNet) (h : network.IsNetwork f)
    (hi : 0 ∉ iface.toUTF8.data.toList) :
    evalExprs p (egressNatRule E f network iface d).nfRule.exprs [] =
      specEval read p (egressNatRule E f network iface d).rule := by
  simp only [egressNatRule, List.append_assoc, evalExprs_family, evalExprs_oifname p hi]
  by_cases hf : p.isIpv4 = f
  · rw [if_pos hf, evalExprs_masked hf d h.length.2 h.length.1]
    cases d <;> simp [hf, specEval, Dir.flag, addrIn_network hr h, ite_ite_none]
  · cases d <;> simp [hf, Ne.symm hf, specEval, Dir.flag, addrIn_network hr h]

theorem extMasqRule_matches (hE : E.Tame) {ext : IPNet} (d : Dir)
    (hr : read (E.ipNetString ext) = ext.asNet) (h : ext.IsHost f) :
    evalExprs p (extMasqRule E f ext d).nfRule.exprs [] =
      specEval read p (extMasqRule E f ext d).rule := by
  simp only [extMasqRule, List.append_assoc, evalExprs_family]
  by_cases hf : p.isIpv4 = f
  · rw [if_pos hf, evalExprs_addr hf d h.length, evalExprs_oifname p hE.2]
    cases d <;> simp [hf, specEval, Dir.flag, addrIn_host (hr.trans h) h.length]
  · cases d <;> simp [hf, Ne.symm hf, specEval, Dir.flag, addrIn_host (hr.trans h) h.length]

theorem filterJump_matches (hE : E.Tame) (i : Fin 3) :
    evalExprs p (Site.filterJump i |>.rule E).nfRule.exprs [] =
      specEval read p (Site.filterJump i |>.rule E).rule := by
  fin_cases i <;>
    simp [Site.rule, nfFilterJumpRules, evalExprs_iifname p hE.2, specEval, hE.filterChain]

theorem natJump_matches (hE : E.Tame) (i : Fin 2) :
    evalExprs p (Site.natJump i |>.rule E).nfRule.exprs [] =
      specEval read p (Site.natJump i |>.rule E).rule := by
  fin_cases i <;>
    simp [Site.rule, nfNatJumpRules, evalExprs_oifname p hE.2, specEval, hE.natChain]

end Builders

/-! ## Every rule the manager builds -/

/-- **The rules do what their specs say, on canonical inputs.** For every
rule the manager builds other than the ext client's network rule, whose
address words read as the inputs they were printed from — every address
compared whole a host of the rule's family, every range and network of the
rule's family without host bits — with the jumped-to chains not named like
iptables' targets and interface names free of NUL, and for every packet: the
rule's expressions reach its verdict or `Masq` exactly when the packet meets
its spec. -/
theorem built_rules_match (E : Env) (hE : E.Tame) (read : String → Option Net) (s : Site)
    (hs : s.isExtNetwork = false) (hr : s.Reads E read) (hc : s.Canonical) (p : Packet) :
    evalExprs p (s.rule E).nfRule.exprs [] = specEval read p (s.rule E).rule := by
  cases s with
  | filterJump i => exact filterJump_matches E read p hE i
  | natJump i => exact natJump_matches E read p hE i
  | egressGwJump f range c => exact egressGwJumpRule_matches E read p f hE hr hc
  | egressNat f network iface d => exact egressNatRule_matches E read p f d hr hc.1 hc.2
  | egressPeer f peer range c => exact egressPeerRule_matches E read p f hr.1 hr.2 hc.1 hc.2
  | ingressPeer f a peer => exact ingressPeerRule_matches E read p f hr.1 hr.2 hc.1 hc.2
  | extFwdJump f ext ingGw => exact extFwdJumpRule_matches E read p f hE hr.1 hr.2 hc.1 hc.2
  | extNetwork => cases hs
  | extPeer f ext peer => exact extPeerRule_matches E read p f hr.1 hr.2 hc.1 hc.2
  | extRange f ext range c d => exact extRangeRule_matches E read p f d hr.1 hr.2 hc.1 hc.2
  | extMasq f ext d => exact extMasqRule_matches E read p f hE d hr hc

/-- `10.0.0.0/8`, written without host bits. -/
def sampleRange : Cidr := ⟨[0, 0, 0, 0, 0, 0, 0, 0, 0, 0, 255, 255, 10, 0, 0, 0], true, 8, rfl,
  fun _ => rfl, by decide⟩

/-- `10.1.0.2/32`, the ext client. -/
def sampleClient : IPNet := ⟨[10, 1, 0, 2], [255, 255, 255, 255]⟩

/-- An IPv4 packet from the ext client to `10.2.3.4`, inside the range. -/
def rangePacket : Packet :=
  ⟨true, [], [], List.replicate 12 0, [10, 1, 0, 2], [10, 2, 3, 4], by decide, by decide, rfl,
    rfl, rfl⟩

/-- Reads the range's word as the range and every other word as the ext client. -/
def rangeRead (w : String) : Option Net :=
  if w = "10.0.0.0/8" then some sampleRange.asNet else sampleClient.asNet

theorem sampleClient_isHost : sampleClient.IsHost true := by
  show sampleClient.asNet = _
  decide

theorem range_rule_matches :
    Env.sample.Tame ∧ (Site.extRange true sampleClient "10.0.0.0/8" sampleRange .dst).Canonical ∧
      evalExprs rangePacket
          (extRangeRule Env.sample true sampleClient "10.0.0.0/8" sampleRange .dst).nfRule.exprs [] =
        specEval rangeRead rangePacket
          (extRangeRule Env.sample true sampleClient "10.0.0.0/8" sampleRange .dst).rule :=
  have hE : Env.sample.Tame := ⟨by decide, by decide⟩
  have hc : (Site.extRange true sampleClient "10.0.0.0/8" sampleRange .dst).Canonical :=
    ⟨sampleClient_isHost, rfl, by decide⟩
  ⟨hE, hc, built_rules_match Env.sample hE rangeRead
    (Site.extRange true sampleClient "10.0.0.0/8" sampleRange .dst) rfl
    ⟨by decide, by simp [rangeRead]⟩ hc rangePacket⟩

/-- **The network rule loads no source address.** The ext client's `ACCEPT`
rule from its network to it is recorded as `-s network -d ext`, but its
expressions check only the family and the destination: every packet of the
rule's family to the ext client whose source is outside the network is
accepted by the rule and refused by its spec. -/
theorem network_rule_ignores_source (E : Env) (read : String → Option Net) (f : Bool)
    (network ext : IPNet) (hr : (Site.extNetwork f network ext).Reads E read) (hc : ext.IsHost f)
    (p : Packet) (hdst : addrIn read p .dst (E.ipNetString ext) = true)
    (hsrc : addrIn read p .src (E.ipNetString network) = false) :
    evalExprs p (extNetworkRule E f network ext).nfRule.exprs [] = some (.verdict .accept) ∧
      specEval read p (extNetworkRule E f network ext).rule = none := by
  refine ⟨by rw [extNetworkRule_eval E read p f hr.2 hc, if_pos hdst], ?_⟩
  simp [extNetworkRule, filterRule, specEval, hsrc]

/-- `10.1.0.0/16`, an ext client's network. -/
def sampleNetwork : IPNet := ⟨[10, 1, 0, 0], [255, 255, 0, 0]⟩

/-- Reads the two nets' words as the nets. -/
def sampleRead (w : String) : Option Net :=
  if w = Env.sample.ipNetString sampleNetwork then sampleNetwork.asNet else sampleClient.asNet

/-- An IPv4 packet from `192.168.0.1`, outside the network, to the ext client. -/
def strayPacket : Packet :=
  ⟨true, [], [], List.replicate 12 0, [192, 168, 0, 1], [10, 1, 0, 2], by decide, by decide, rfl,
    rfl, rfl⟩

/-- The ext client's network rule, `-s 10.1.0.0/16 -d 10.1.0.2/32`, accepts a
packet from `192.168.0.1`. -/
theorem stray_packet_accepted :
    (Site.extNetwork true sampleNetwork sampleClient).Reads Env.sample sampleRead ∧
      sampleClient.IsHost true ∧
      addrIn sampleRead strayPacket .dst (Env.sample.ipNetString sampleClient) = true ∧
      addrIn sampleRead strayPacket .src (Env.sample.ipNetString sampleNetwork) = false ∧
      evalExprs strayPacket
          (extNetworkRule Env.sample true sampleNetwork sampleClient).nfRule.exprs [] =
        some (.verdict .accept) ∧
      specEval sampleRead strayPacket (extNetworkRule Env.sample true sampleNetwork sampleClient).rule =
        none :=
  have hr : (Site.extNetwork true sampleNetwork sampleClient).Reads Env.sample sampleRead :=
    ⟨by simp [sampleRead], by decide⟩
  have hc : sampleClient.IsHost true := sampleClient_isHost
  have hd : addrIn sampleRead strayPacket .dst (Env.sample.ipNetString sampleClient) = true := by
    decide
  have hs : addrIn sampleRead strayPacket .src (Env.sample.ipNetString sampleNetwork) = false := by
    decide
  ⟨hr, hc, hd, hs, network_rule_ignores_source Env.sample sampleRead true sampleNetwork sampleClient
    hr hc strayPacket hd hs⟩

end Router

end Netclient
