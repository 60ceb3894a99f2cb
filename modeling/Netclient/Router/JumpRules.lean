import Netclient.Router.Ops
/-!
# Router — what becomes of `nfJumpRules`

`init()` fills the package's `nfJumpRules` with the filter and NAT jump
rules, and `removeJumpRules` deletes every rule of the list from the
kernel. `InsertIngressRoutingRules` appends to the list the jump from the
FORWARD chain into its ext client's chain, once its address's prefix
parses, and nothing ever takes an entry out: `RemoveRoutingRules` and
`CleanRoutingRules` delete recorded rules from the kernel and entries from
the tables, and leave the list as it is.

Every builder and every body leaves the list alone but that one append
(the frame lemmas below), so over a whole run the list is its first value
followed by one forward jump per ingress insertion, in order
(`run_jumpRules`): it grows with every insertion of a client, the same
client's included, and shrinks with none.
-/

namespace Netclient

namespace Router

namespace World

/-- An insertion leaves `nfJumpRules` alone, whatever its `Flush` returns. -/
@[simp] theorem insertRule_jumpRules (w : World) (r : NfRule) :
    (w.insertRule r).1.jumpRules = w.jumpRules := by
  unfold insertRule; split <;> rfl

/-- So does inserting a rule and keeping it for the record. -/
@[simp] theorem add_jumpRules (w : World) (r : RuleInfo) : (w.add r).1.jumpRules = w.jumpRules := by
  simp [add]

/-- A deletion leaves `nfJumpRules` alone, whatever its outcome. -/
@[simp] theorem deleteRule_jumpRules (w : World) (table chain key : String) :
    (w.deleteRule table chain key).1.jumpRules = w.jumpRules := by
  unfold deleteRule; split
  · rfl
  · split
    · rfl
    · split <;> rfl

end World

variable (E : Env)

/-! ## The builders -/

section Builders

variable (isIpv4 : Bool)

/-- The NAT rules of one egress range leave `nfJumpRules` alone. -/
@[simp] theorem natRoutes_jumpRules (ei : EgressInfo) (range : String) (w : World) :
    (natRoutes E ei isIpv4 range w).1.jumpRules = w.jumpRules := by
  unfold natRoutes; split <;> simp

/-- The egress gateway's rules for its ranges leave `nfJumpRules` alone. -/
@[simp] theorem gwRoutes_jumpRules (ei : EgressInfo) :
    ∀ rs w, (gwRoutes E ei isIpv4 rs w).1.jumpRules = w.jumpRules
  | [], _ => rfl
  | r :: rs, w => by
    unfold gwRoutes
    split
    · exact gwRoutes_jumpRules ei rs w
    · simp only [World.add, gwRoutes_jumpRules ei rs]
      split <;> simp

/-- A peer's egress rules leave `nfJumpRules` alone. -/
@[simp] theorem peerRoutes_jumpRules (peer : PeerRouteInfo) :
    ∀ rs w, (peerRoutes E isIpv4 peer rs w).1.jumpRules = w.jumpRules
  | [], _ => rfl
  | r :: rs, w => by
    unfold peerRoutes
    split
    · exact peerRoutes_jumpRules peer rs w
    · simp [World.add, peerRoutes_jumpRules peer rs]

/-- The egress gateway's loop over its peers leaves `nfJumpRules` alone. -/
@[simp] theorem gwPeerRoutes_jumpRules (ei : EgressInfo) :
    ∀ ps t w, (gwPeerRoutes E ei isIpv4 ps t w).2.jumpRules = w.jumpRules
  | [], _, _ => rfl
  | p :: ps, t, w => by
    unfold gwPeerRoutes
    split
    · exact gwPeerRoutes_jumpRules ei ps t w
    · simp [gwPeerRoutes_jumpRules ei ps]

/-- The ext client's rules to the ingress peers leave `nfJumpRules` alone. -/
@[simp] theorem extPeerRoutes_jumpRules (ext : ExtClientInfo) :
    ∀ ps t w, (extPeerRoutes E isIpv4 ext ps t w).2.jumpRules = w.jumpRules
  | [], _, _ => rfl
  | p :: ps, t, w => by
    unfold extPeerRoutes
    split
    · exact extPeerRoutes_jumpRules ext ps t w
    · simp [extPeerRoutes_jumpRules ext ps]

/-- The ext client's egress-range rules leave `nfJumpRules` alone. -/
@[simp] theorem extRangeRoutes_jumpRules (ext : IPNet) :
    ∀ rs w, (extRangeRoutes E isIpv4 ext rs w).1.jumpRules = w.jumpRules
  | [], _ => rfl
  | r :: rs, w => by
    unfold extRangeRoutes
    split
    · exact extRangeRoutes_jumpRules ext rs w
    · simp only [World.add]
      split <;> simp [extRangeRoutes_jumpRules ext rs]

/-- The ext client's MASQUERADE rules leave `nfJumpRules` alone. -/
@[simp] theorem extMasqRoutes_jumpRules (ext : IPNet) (w : World) :
    (extMasqRoutes E isIpv4 ext w).1.jumpRules = w.jumpRules := by
  simp [extMasqRoutes, World.add]

end Builders

/-! ## The deletions -/

/-- Deleting a peer's rules leaves `nfJumpRules` alone, wherever the loop stops. -/
@[simp] theorem deleteRules_jumpRules (key : String) :
    ∀ rules w, (deleteRules E key rules w).1.jumpRules = w.jumpRules
  | [], _ => rfl
  | r :: rs, w => by
    unfold deleteRules
    split <;> rename_i h
    · rw [← w.deleteRule_jumpRules r.table r.chain _, h]
    · rw [deleteRules_jumpRules key rs, ← w.deleteRule_jumpRules r.table r.chain _, h]

/-- Dropping one ext client's egress-range rules leaves `nfJumpRules` alone. -/
@[simp] theorem dropRangeRules_jumpRules (extKey : String) :
    ∀ rules w, (dropRangeRules E extKey rules w).1.jumpRules = w.jumpRules
  | [], _ => rfl
  | r :: rs, w => by
    unfold dropRangeRules
    split
    · split <;> rename_i h
      · rw [← w.deleteRule_jumpRules r.table r.chain _, h]
      · rw [dropRangeRules_jumpRules extKey rs, ← w.deleteRule_jumpRules r.table r.chain _, h]
    · simp [dropRangeRules_jumpRules extKey rs]

/-- The refresh's deletion pass leaves `nfJumpRules` alone. -/
@[simp] theorem dropRanges_jumpRules :
    ∀ es t w, (dropRanges E es t w).2.2.jumpRules = w.jumpRules
  | [], _, _ => rfl
  | (extKey, cfg) :: es, t, w => by
    unfold dropRanges
    split
    · exact dropRanges_jumpRules es t w
    · split <;> rename_i h
      · rw [← dropRangeRules_jumpRules E extKey _ w, h]
      · rw [dropRanges_jumpRules, ← dropRangeRules_jumpRules E extKey _ w, h]

/-- The refresh's re-creation pass leaves `nfJumpRules` alone. -/
@[simp] theorem addRanges_jumpRules (ranges : List CidrText) :
    ∀ es t w, (addRanges E ranges es t w).2.jumpRules = w.jumpRules
  | [], _, _ => rfl
  | (extKey, ext) :: es, t, w => by
    unfold addRanges
    split
    · exact addRanges_jumpRules ranges es t w
    · simp [addRanges_jumpRules ranges es]

/-- `CleanRoutingRules`' loop leaves `nfJumpRules` alone. -/
@[simp] theorem cleanRules_jumpRules : ∀ rules w, (cleanRules E rules w).jumpRules = w.jumpRules
  | [], _ => rfl
  | r :: rs, w => by simp [cleanRules, cleanRules_jumpRules rs]

/-! ## The bodies -/

/-- The forward jump a call appends to `nfJumpRules`: that of an
`InsertIngressRoutingRules` whose ext client's prefix parses. -/
def Call.newJumpRules : Call → List RuleInfo
  | .insertIngress _ ext _ =>
    match E.prefixIs6 (E.ipNetString ext.extPeerAddr) with
    | none => []
    | some is6 => [extFwdJumpRule E (!is6) ext.extPeerAddr ext.ingGwAddr]
  | _ => []

/-- `InsertIngressRoutingRules` appends its forward jump, once the ext client's prefix parses. -/
theorem insertIngressBody_jumpRules (ext : ExtClientInfo) (rs : List CidrText) (t : RuleTable)
    (w : World) : (insertIngressBody E ext rs t w).2.2.jumpRules =
      w.jumpRules ++ (Call.insertIngress "" ext rs).newJumpRules E := by
  rcases h : E.prefixIs6 (E.ipNetString ext.extPeerAddr) with _ | is6
  · simp [insertIngressBody, Call.newJumpRules, h]
  · simp only [insertIngressBody, Call.newJumpRules, h, World.add]
    split <;> simp

/-- `InsertEgressRoutingRules` leaves `nfJumpRules` alone. -/
@[simp] theorem insertEgressBody_jumpRules (ei : EgressInfo) (t : RuleTable) (w : World) :
    (insertEgressBody E ei t w).2.2.jumpRules = w.jumpRules := by
  simp [insertEgressBody]

/-- `AddEgressRoutingRule`'s body leaves `nfJumpRules` alone, panic included. -/
@[simp] theorem addEgressBody_jumpRules (ei : EgressInfo) (peer : PeerRouteInfo) (t : RuleTable)
    (w : World) : (addEgressBody E ei peer t w).2.2.jumpRules = w.jumpRules := by
  unfold addEgressBody; split <;> simp

/-- `AddIngressRoutingRule`'s body leaves `nfJumpRules` alone. -/
@[simp] theorem addIngressBody_jumpRules (key : String) (addr : IpText) (peer : PeerRouteInfo)
    (t : RuleTable) (w : World) : (addIngressBody E key addr peer t w).2.2.jumpRules = w.jumpRules := by
  unfold addIngressBody; split
  · rfl
  · dsimp only
    split <;> simp

/-- The refresh's locked body leaves `nfJumpRules` alone. -/
@[simp] theorem refreshRanges_jumpRules (upd : IngressInfo) (curr : List CidrText) (t : RuleTable)
    (w : World) : (refreshRanges E upd curr t w).2.2.jumpRules = w.jumpRules := by
  unfold refreshRanges
  split
  · split
    · rename_i h
      rw [← dropRanges_jumpRules E t.entries t w, h]
      split <;> simp
    · exact dropRanges_jumpRules E _ t w
  · rfl

/-- So does its deferred update of `currEgressRangesMap`. -/
@[simp] theorem refreshBody_jumpRules (server : String) (upd : IngressInfo) (t : RuleTable)
    (w : World) : (refreshBody E server upd t w).2.2.jumpRules = w.jumpRules := by
  simp [refreshBody]

/-- `RemoveRoutingRules` leaves `nfJumpRules` alone. -/
@[simp] theorem removeBody_jumpRules (key : String) (t : RuleTable) (w : World) :
    (removeBody E key t w).2.2.jumpRules = w.jumpRules := by
  unfold removeBody; split
  · rfl
  · split <;> rename_i h <;> rw [← deleteRules_jumpRules E key _ w, h]

/-- `DeleteRoutingRule` leaves `nfJumpRules` alone. -/
@[simp] theorem deleteBody_jumpRules (src dst : String) (t : RuleTable) (w : World) :
    (deleteBody E src dst t w).2.2.jumpRules = w.jumpRules := by
  unfold deleteBody; split
  · rfl
  · split
    · rfl
    · split <;> rename_i h <;> rw [← deleteRules_jumpRules E src _ w, h]

/-- `SaveRules` leaves `nfJumpRules` alone. -/
@[simp] theorem Mgr.saveRules_jumpRules (m : Mgr) (server name : String) (t : RuleTable) :
    (m.saveRules E server name t).jumpRules = m.jumpRules := by
  unfold Mgr.saveRules; split_ifs <;> rfl

/-- `DeleteRuleTable` leaves `nfJumpRules` alone. -/
@[simp] theorem Mgr.deleteRuleTable_jumpRules (m : Mgr) (server name : String) :
    (m.deleteRuleTable E server name).jumpRules = m.jumpRules := by
  unfold Mgr.deleteRuleTable; split_ifs <;> rfl

/-- An operation's `nfJumpRules` is the one its body leaves. -/
@[simp] theorem Mgr.locked_jumpRules (m : Mgr) (rep : Replies) (server name : String)
    (body : RuleTable → World → Outcome × RuleTable × World) :
    (m.locked E rep server name body).2.jumpRules =
      (body (m.fetchRuleTable E server name) (m.world rep)).2.2.jumpRules := by
  simp [Mgr.locked, Mgr.withWorld]

/-- **One call.** A call leaves `nfJumpRules` as it was, followed by its
forward jump. -/
theorem call_jumpRules (m : Mgr) (rep : Replies) (c : Call) :
    (m.call E rep c).2.jumpRules = m.jumpRules ++ c.newJumpRules E := by
  cases c with
  | insertIngress server ext rs =>
    rw [Mgr.call, Mgr.locked_jumpRules, insertIngressBody_jumpRules]
    rfl
  | addEgress server ei peer =>
    simp only [Mgr.call, Mgr.addEgressRoutingRule, Call.newJumpRules, List.append_nil]
    split <;> simp [Mgr.world]
  | clean server name =>
    simp [Mgr.call, Mgr.cleanRoutingRules, Call.newJumpRules, cleanBody, Mgr.withWorld,
      Mgr.world]
  | _ => simp [Mgr.call, Mgr.addIngressRoutingRule, Call.newJumpRules, Mgr.world]

/-- **`nfJumpRules` over a run.** For every manager state and every run of
calls that does not panic, `nfJumpRules` ends as it began, followed by the
forward jump of each `InsertIngressRoutingRules` whose ext client's prefix
parses, in call order: no call removes an entry. -/
theorem run_jumpRules : ∀ (calls : List (Call × Replies)) (m m' : Mgr),
    m.run E calls = some m' → m'.jumpRules = m.jumpRules ++ calls.flatMap (·.1.newJumpRules E)
  | [], m, m', h => by
    cases h
    simp
  | (c, rep) :: calls, m, m', h => by
    simp only [Mgr.run] at h
    split at h
    · cases h
    · rename_i o m₁ _ hc
      rw [run_jumpRules calls m₁ m' h, List.flatMap_cons, ← List.append_assoc,
        ← call_jumpRules E m rep c, hc]

/-- Ext client `a` of server `s` inserted, removed, and inserted again. -/
def reinserted : List (Call × Replies) :=
  [(.insertIngress "s" (extAt "a" 2) [], .allOk), (.remove "s" Env.sample.ingressTable "a", .allOk),
    (.insertIngress "s" (extAt "a" 2) [], .allOk)]

/-- The re-inserted client's second forward jump is appended beside the first. -/
theorem reinserted_jumpRules :
    ∃ m, (Mgr.init Env.sample []).run Env.sample reinserted = some m ∧
      m.jumpRules = nfFilterJumpRules Env.sample ++ nfNatJumpRules Env.sample ++
        reinserted.flatMap (·.1.newJumpRules Env.sample) ∧
      (reinserted.flatMap (·.1.newJumpRules Env.sample)).length = 2 :=
  ⟨_, rfl, run_jumpRules Env.sample reinserted (Mgr.init Env.sample []) _ rfl, rfl⟩

end Router

end Netclient
