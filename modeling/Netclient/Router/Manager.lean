import Netclient.Common.GoMap
import Netclient.Router.Rules
/-!
# Router — the nftables manager

The manager keeps, per server, an ingress and an egress `ruletable`: a map
from a gateway or ext-client key to a `rulesCfg`, whose `rulesMap` holds the
rules recorded per key. Every operation is three steps under `n.mux`:
`FetchRuleTable`, its locked body, and its deferred `SaveRules` (or
`DeleteRuleTable`). This file gives each body as a function of the table it
fetched and of the `World` — the kernel's ruleset, its replies to the
body's `Flush`es, and the package's globals `currEgressRangesMap` and
`nfJumpRules` — and `Mgr` runs the three steps back to back.

A `rulesCfg` is always stored with a map (`make`), so `rulesMap` is never
`nil` here; `ruleTable[k].rulesMap[k'] = v` on an absent `k` writes into the
`nil` map of the zero `rulesCfg` and panics (`RuleTable.setRules`).
-/

namespace Netclient

namespace Router

/-- `models.PeerRouteInfo`. -/
structure PeerRouteInfo where
  peerKey : String
  peerAddr : IPNet
  allow : Bool

/-- `models.EgressInfo`, with the fields of its `EgressGWCfg` the manager reads. -/
structure EgressInfo where
  egressID : String
  network : IPNet
  egressGwAddr : IPNet
  /-- The values of `GwPeers`, in iteration order. -/
  gwPeers : List PeerRouteInfo
  /-- `EgressGWCfg.Ranges`. -/
  ranges : List CidrText
  /-- `EgressGWCfg.NatEnabled`. -/
  natEnabled : String

/-- `models.ExtClientInfo`. -/
structure ExtClientInfo where
  ingGwAddr : IPNet
  network : IPNet
  extPeerAddr : IPNet
  extPeerKey : String
  /-- The values of `Peers`, in iteration order. -/
  peers : List PeerRouteInfo
  masquerade : Bool

/-- `models.IngressInfo`. -/
structure IngressInfo where
  extPeers : GoMap String ExtClientInfo
  egressRanges : List CidrText

/-- A `rulesCfg`. -/
structure RulesCfg where
  isIpv4 : Bool
  rulesMap : GoMap String (List RuleInfo)

/-- A `ruletable`. -/
abbrev RuleTable := GoMap String RulesCfg

/-- `ruleTable[k].rulesMap[k'] = rules` where entry `k` exists; the entry's map
is shared with the table, so the table sees the write. -/
def RuleTable.putRules (t : RuleTable) (k k' : String) (rules : List RuleInfo) : RuleTable :=
  match t.get? k with
  | some cfg => t.insert k { cfg with rulesMap := cfg.rulesMap.insert k' rules }
  | none => t

@[simp] theorem RuleTable.get?_putRules (t : RuleTable) (k k' j : String) (rules : List RuleInfo) :
    (t.putRules k k' rules).get? j =
      if j = k then (t.get? k).map fun cfg => { cfg with rulesMap := cfg.rulesMap.insert k' rules }
      else t.get? j := by
  unfold RuleTable.putRules
  cases h : t.get? k <;> by_cases hj : j = k <;> simp_all

/-- `ruleTable[k].rulesMap[k'] = rules`; `none` is the panic of a write into
the `nil` map when `k` is absent. -/
def RuleTable.setRules (t : RuleTable) (k k' : String) (rules : List RuleInfo) :
    Option RuleTable :=
  if (t.get? k).isSome then some (t.putRules k k' rules) else none

/-- Every rule a table records, entry by entry, in iteration order. -/
def RuleTable.allRules (t : RuleTable) : List RuleInfo :=
  t.entries.flatMap fun e => e.2.rulesMap.entries.flatMap (·.2)

/-! ## The world a body sees -/

/-- What a locked body reads and writes besides its rule table: the kernel's
ruleset, the kernel's replies to the body's coming `Flush`es (`ins` for those
committing an insertion, `del` for those of `deleteRule`; once a list runs
out `Flush` succeeds), and the globals `currEgressRangesMap` and `nfJumpRules`. -/
structure World where
  rules : List NfRule
  ins : List Bool
  del : List Bool
  currEgressRanges : GoMap String (List CidrText)
  jumpRules : List RuleInfo

/-- The error `deleteRule` returns. -/
inductive DelError
  /-- "No such rule exists: " + key. -/
  | noSuchRule (key : String)
  /-- `DelRule` or its `Flush` failed. -/
  | flush
  deriving DecidableEq, Repr

/-- The errors the operations return. -/
inductive RouteError
  /-- "peer not found in rule table: " + key. -/
  | peerNotFound (key : String)
  /-- "rules not found for: " + key. -/
  | rulesNotFound (key : String)
  /-- "nftables: error while removing existing %s rules [%v] for %s: %v". -/
  | removing (table : String) (spec : List String) (key : String) (cause : DelError)
  /-- `netip.ParsePrefix`'s error on the string. -/
  | badPrefix (s : String)
  deriving DecidableEq, Repr

/-- How an operation ends. -/
inductive Outcome
  | ok
  | error (e : RouteError)
  /-- A write into a `nil` map: a run-time panic. -/
  | panic
  deriving DecidableEq, Repr

/-- `getRule`: the first rule of the chain carrying the key. -/
def getRule (rules : List NfRule) (table chain key : String) : Option NfRule :=
  rules.find? fun r => r.table = table ∧ r.chain = chain ∧ r.key = key

namespace World

/-- `n.conn.InsertRule(rule)`, then `n.conn.Flush()`: whether it succeeded. -/
def insertRule (w : World) (r : NfRule) : World × Bool :=
  match w.ins with
  | [] => ({ w with rules := r :: w.rules }, true)
  | ok :: ins => ({ w with rules := if ok then r :: w.rules else w.rules, ins := ins }, ok)

/-- Insert, and keep the rule for the record when its `Flush` succeeded. -/
def add (w : World) (r : RuleInfo) : World × List RuleInfo :=
  let (w, ok) := w.insertRule r.nfRule
  (w, if ok then [r] else [])

/-- `n.deleteRule(table, chain, key)`. -/
def deleteRule (w : World) (table chain key : String) : World × Option DelError :=
  match getRule w.rules table chain key with
  | none => (w, some (.noSuchRule key))
  | some r => match w.del with
    | [] => ({ w with rules := w.rules.erase r }, none)
    | ok :: del =>
      if ok then ({ w with rules := w.rules.erase r, del := del }, none)
      else ({ w with del := del }, some .flush)

/-- With no failure left, an insertion takes. -/
theorem insertRule_of_ins_nil {w : World} (h : w.ins = []) (r : NfRule) :
    w.insertRule r = ({ w with rules := r :: w.rules }, true) := by
  simp [insertRule, h]

@[simp] theorem insertRule_del (w : World) (r : NfRule) : (w.insertRule r).1.del = w.del := by
  unfold insertRule; split <;> rfl

@[simp] theorem insertRule_currEgressRanges (w : World) (r : NfRule) :
    (w.insertRule r).1.currEgressRanges = w.currEgressRanges := by
  unfold insertRule; split <;> rfl

@[simp] theorem deleteRule_ins (w : World) (table chain key : String) :
    (w.deleteRule table chain key).1.ins = w.ins := by
  unfold deleteRule; split
  · rfl
  · split
    · rfl
    · split <;> rfl

@[simp] theorem deleteRule_currEgressRanges (w : World) (table chain key : String) :
    (w.deleteRule table chain key).1.currEgressRanges = w.currEgressRanges := by
  unfold deleteRule; split
  · rfl
  · split
    · rfl
    · split <;> rfl

end World

variable (E : Env)

/-! ## The bodies -/

/-- The NAT part of `InsertEgressRoutingRules`' first loop for one range: each
MASQUERADE rule is deleted by key, then inserted. -/
def natRoutes (ei : EgressInfo) (isIpv4 : Bool) (range : String) (w : World) :
    World × List RuleInfo :=
  match E.routeIface range with
  | none => (w, [])
  | some iface =>
    let s := egressNatRule E isIpv4 ei.network iface .src
    let (w, a) := ((w.deleteRule E.defaultNatTable E.nattablePRTChain s.nfRule.key).1).add s
    let d := egressNatRule E isIpv4 ei.network iface .dst
    let (w, b) := ((w.deleteRule E.defaultNatTable E.nattablePRTChain d.nfRule.key).1).add d
    (w, a ++ b)

/-- `InsertEgressRoutingRules`' first loop: `egressGwRoutes`. -/
def gwRoutes (ei : EgressInfo) (isIpv4 : Bool) : List CidrText → World → World × List RuleInfo
  | [], w => (w, [])
  | r :: rs, w =>
    match r.parsed with
    | none => gwRoutes ei isIpv4 rs w
    | some c =>
      let (w, jump) := w.add (egressGwJumpRule E isIpv4 r.text c)
      let (w, nat) := if ei.natEnabled = "yes" then natRoutes E ei isIpv4 r.text w else (w, [])
      let (w, rest) := gwRoutes ei isIpv4 rs w
      (w, jump ++ nat ++ rest)

/-- A gateway peer's ACCEPT rules, one per egress range. -/
def peerRoutes (isIpv4 : Bool) (peer : PeerRouteInfo) : List CidrText → World → World × List RuleInfo
  | [], w => (w, [])
  | r :: rs, w =>
    match r.parsed with
    | none => peerRoutes isIpv4 peer rs w
    | some c =>
      let (w, a) := w.add (egressPeerRule E isIpv4 peer.peerAddr r.text c)
      let (w, rest) := peerRoutes isIpv4 peer rs w
      (w, a ++ rest)

/-- `InsertEgressRoutingRules`' second loop, over the gateway's peers. -/
def gwPeerRoutes (ei : EgressInfo) (isIpv4 : Bool) :
    List PeerRouteInfo → RuleTable → World → RuleTable × World
  | [], t, w => (t, w)
  | p :: ps, t, w =>
    if !p.allow then gwPeerRoutes ei isIpv4 ps t w
    else
      let (w, rs) := peerRoutes E isIpv4 p ei.ranges w
      gwPeerRoutes ei isIpv4 ps (t.putRules ei.egressID p.peerKey rs) w

/-- The locked body of `InsertEgressRoutingRules`. -/
def insertEgressBody (ei : EgressInfo) (t : RuleTable) (w : World) : Outcome × RuleTable × World :=
  let isIpv4 := E.isAddrIpv4 (E.ipNetString ei.egressGwAddr)
  let t := t.insert ei.egressID ⟨isIpv4, GoMap.empty⟩
  let (w, routes) := gwRoutes E ei isIpv4 ei.ranges w
  let (t, w) := gwPeerRoutes E ei isIpv4 ei.gwPeers t w
  (.ok, t.putRules ei.egressID ei.egressID routes, w)

/-- The locked body of `AddEgressRoutingRule`, for an allowed peer. -/
def addEgressBody (ei : EgressInfo) (peer : PeerRouteInfo) (t : RuleTable) (w : World) :
    Outcome × RuleTable × World :=
  match t.setRules ei.egressID peer.peerKey [] with
  | none => (.panic, t, w)
  | some t =>
    let (w, rs) := peerRoutes E (E.isAddrIpv4 (E.ipNetString ei.egressGwAddr)) peer ei.ranges w
    (.ok, t.putRules ei.egressID peer.peerKey rs, w)

/-- The locked body of `AddIngressRoutingRule`: the rule is recorded whether
or not its `Flush` succeeded. -/
def addIngressBody (extPeerKey : String) (extPeerAddr : IpText) (peer : PeerRouteInfo)
    (t : RuleTable) (w : World) : Outcome × RuleTable × World :=
  match E.prefixIs6 (E.ipNetString peer.peerAddr) with
  | none => (.error (.badPrefix (E.ipNetString peer.peerAddr)), t, w)
  | some is6 =>
    let r := ingressPeerRule E (!is6) extPeerAddr peer.peerAddr
    let w := (w.insertRule r.nfRule).1
    match t.setRules extPeerKey peer.peerKey [r] with
    | none => (.panic, t, w)
    | some t => (.ok, t, w)

/-- `InsertIngressRoutingRules`' loop over the ext client's peers. -/
def extPeerRoutes (isIpv4 : Bool) (ext : ExtClientInfo) :
    List PeerRouteInfo → RuleTable → World → RuleTable × World
  | [], t, w => (t, w)
  | p :: ps, t, w =>
    if !p.allow || p.peerKey == ext.extPeerKey then extPeerRoutes isIpv4 ext ps t w
    else
      let r := extPeerRule E isIpv4 ext.extPeerAddr p.peerAddr
      let (w, ok) := w.insertRule r.nfRule
      extPeerRoutes isIpv4 ext ps (if ok then t.putRules ext.extPeerKey p.peerKey [r] else t) w

/-- The egress-range loop of `InsertIngressRoutingRules` and
`RefreshEgressRangesOnIngressGw`: per range the rule to it and, once that
one's `Flush` succeeded, the rule from it. -/
def extRangeRoutes (isIpv4 : Bool) (ext : IPNet) : List CidrText → World → World × List RuleInfo
  | [], w => (w, [])
  | r :: rs, w =>
    match r.parsed with
    | none => extRangeRoutes isIpv4 ext rs w
    | some c =>
      let (w, ok) := w.insertRule (extRangeRule E isIpv4 ext r.text c .dst).nfRule
      if !ok then extRangeRoutes isIpv4 ext rs w
      else
        let (w, b) := w.add (extRangeRule E isIpv4 ext r.text c .src)
        let (w, rest) := extRangeRoutes isIpv4 ext rs w
        (w, extRangeRule E isIpv4 ext r.text c .dst :: b ++ rest)

/-- The MASQUERADE part of `InsertIngressRoutingRules`. -/
def extMasqRoutes (isIpv4 : Bool) (ext : IPNet) (w : World) : World × List RuleInfo :=
  let (w, a) := w.add (extMasqRule E isIpv4 ext .src)
  let (w, b) := w.add (extMasqRule E isIpv4 ext .dst)
  (w, a ++ b)

/-- The locked body of `InsertIngressRoutingRules`: its first two rules are
recorded whether or not their `Flush` succeeded. -/
def insertIngressBody (ext : ExtClientInfo) (egressRanges : List CidrText) (t : RuleTable)
    (w : World) : Outcome × RuleTable × World :=
  match E.prefixIs6 (E.ipNetString ext.extPeerAddr) with
  | none => (.error (.badPrefix (E.ipNetString ext.extPeerAddr)), t, w)
  | some is6 =>
    let isIpv4 := !is6
    let k := ext.extPeerKey
    let fwd := extFwdJumpRule E isIpv4 ext.extPeerAddr ext.ingGwAddr
    let t : RuleTable := t.insert k ⟨isIpv4, GoMap.empty⟩
    let w := (w.insertRule fwd.nfRule).1
    let w := { w with jumpRules := w.jumpRules ++ [fwd] }
    let net := extNetworkRule E isIpv4 ext.network ext.extPeerAddr
    let w := (w.insertRule net.nfRule).1
    let t := t.putRules k k [fwd, net]
    let (t, w) := extPeerRoutes E isIpv4 ext ext.peers t w
    let (w, ranges) := extRangeRoutes E isIpv4 ext.extPeerAddr egressRanges w
    let t := t.putRules k k ([fwd, net] ++ ranges)
    if !ext.masquerade then (.ok, t, w)
    else
      let (w, masq) := extMasqRoutes E isIpv4 ext.extPeerAddr w
      (.ok, t.putRules k k ([fwd, net] ++ ranges ++ masq), w)

/-- Deletes the rules in order and stops at the first failure, whose error
names `key`. -/
def deleteRules (key : String) : List RuleInfo → World → World × Option RouteError
  | [], w => (w, none)
  | r :: rs, w =>
    match w.deleteRule r.table r.chain (E.genRuleKey r.rule) with
    | (w, some e) => (w, some (.removing r.table r.rule key e))
    | (w, none) => deleteRules key rs w

/-- The deletion loop of `RefreshEgressRangesOnIngressGw` over one ext
client's own rules: deletes the egress-range rules, keeps the others. -/
def dropRangeRules (extKey : String) : List RuleInfo → World → World × Except RouteError (List RuleInfo)
  | [], w => (w, .ok [])
  | r :: rs, w =>
    if r.egressExtRule then
      match w.deleteRule r.table r.chain (E.genRuleKey r.rule) with
      | (w, some e) => (w, .error (.removing r.table r.rule extKey e))
      | (w, none) => dropRangeRules extKey rs w
    else
      let (w, kept) := dropRangeRules extKey rs w
      (w, kept.map (r :: ·))

/-- `RefreshEgressRangesOnIngressGw`' deletion pass over the table's entries,
the table updated entry by entry. -/
def dropRanges : List (String × RulesCfg) → RuleTable → World → Outcome × RuleTable × World
  | [], t, w => (.ok, t, w)
  | (extKey, cfg) :: es, t, w =>
    match cfg.rulesMap.get? extKey with
    | none => dropRanges es t w
    | some extRules =>
      match dropRangeRules E extKey extRules w with
      | (w, .error e) => (.error e, t, w)
      | (w, .ok kept) =>
        dropRanges es (t.insert extKey { cfg with rulesMap := cfg.rulesMap.insert extKey kept }) w

/-- `RefreshEgressRangesOnIngressGw`' re-creation pass over the update's ext clients. -/
def addRanges (ranges : List CidrText) :
    List (String × ExtClientInfo) → RuleTable → World → RuleTable × World
  | [], t, w => (t, w)
  | (extKey, ext) :: es, t, w =>
    match t.get? extKey with
    | none => addRanges ranges es t w
    | some cfg =>
      let routes := (cfg.rulesMap.get? extKey).getD []
      let (w, rs) := extRangeRoutes E (E.isAddrIpv4 (E.ipNetString ext.extPeerAddr)) ext.extPeerAddr
        ranges w
      addRanges ranges es (t.putRules extKey extKey (routes ++ rs)) w

/-- `RefreshEgressRangesOnIngressGw`' locked body before its deferred update:
with `curr` the ranges recorded for the server, it deletes the ext clients'
egress-range rules and re-creates them, unless the two lists have the same
non-zero length. -/
def refreshRanges (upd : IngressInfo) (curr : List CidrText) (t : RuleTable) (w : World) :
    Outcome × RuleTable × World :=
  if upd.egressRanges.length = 0 ∨ upd.egressRanges.length ≠ curr.length then
    match dropRanges E t.entries t w with
    | (.ok, t, w) =>
      if upd.egressRanges.length = 0 then (.ok, t, w)
      else
        let r := addRanges E upd.egressRanges upd.extPeers.entries t w
        (.ok, r.1, r.2)
    | r => r
  else (.ok, t, w)

/-- The locked body of `RefreshEgressRangesOnIngressGw`, with its deferred
update of `currEgressRangesMap`, which runs on every return. -/
def refreshBody (server : String) (upd : IngressInfo) (t : RuleTable) (w : World) :
    Outcome × RuleTable × World :=
  let r := refreshRanges E upd ((w.currEgressRanges.get? server).getD []) t w
  (r.1, r.2.1,
    { r.2.2 with currEgressRanges := r.2.2.currEgressRanges.insert server upd.egressRanges })

/-- The locked body of `RemoveRoutingRules`. -/
def removeBody (peerKey : String) (t : RuleTable) (w : World) : Outcome × RuleTable × World :=
  match t.get? peerKey with
  | none => (.error (.peerNotFound peerKey), t, w)
  | some cfg =>
    match deleteRules E peerKey (cfg.rulesMap.entries.flatMap (·.2)) w with
    | (w, some e) => (.error e, t, w)
    | (w, none) => (.ok, t.erase peerKey, w)

/-- The locked body of `DeleteRoutingRule`: the entries stay. -/
def deleteBody (srcPeerKey dstPeerKey : String) (t : RuleTable) (w : World) :
    Outcome × RuleTable × World :=
  match t.get? srcPeerKey with
  | none => (.error (.peerNotFound srcPeerKey), t, w)
  | some cfg =>
    match cfg.rulesMap.get? dstPeerKey with
    | none => (.error (.rulesNotFound dstPeerKey), t, w)
    | some rules =>
      match deleteRules E srcPeerKey rules w with
      | (w, some e) => (.error e, t, w)
      | (w, none) => (.ok, t, w)

/-- `CleanRoutingRules`' loop: every rule deleted, errors only logged. -/
def cleanRules : List RuleInfo → World → World
  | [], w => w
  | r :: rs, w => cleanRules rs (w.deleteRule r.table r.chain (E.genRuleKey r.rule)).1

/-- The locked body of `CleanRoutingRules`. -/
def cleanBody (t : RuleTable) (w : World) : Outcome × RuleTable × World :=
  (.ok, t, cleanRules E t.allRules w)

end Router

end Netclient
