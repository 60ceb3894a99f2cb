import Netclient.Router.Ops
/-!
# Router — refreshing the egress ranges on an ingress gateway

`RefreshEgressRangesOnIngressGw` compares the update's egress ranges with
the list `currEgressRangesMap` recorded for the server by their lengths
only. When the update has ranges and as many as were recorded, it returns
at once, whatever the ranges are (`refresh_skips_same_count`): an ext client
keeps the rules of ranges that are gone and gets none for those that came.

When the refresh does run and every kernel operation succeeds, it does
what it is for (`refresh_rebuilds_ranges`): every ext client present in
the server's table and in the update ends with exactly the two ACCEPT rules
of each range `net.ParseCIDR` accepts among its egress-range rules, and
the kernel holds them.
-/

namespace Netclient

namespace Router

variable (E : Env)

/-- The egress-range rules an ext client should have: per range `ParseCIDR`
accepts, the rule to it and the rule from it. -/
def rangeRules (isIpv4 : Bool) (ext : IPNet) (ranges : List CidrText) : List RuleInfo :=
  ranges.flatMap fun r => match r.parsed with
    | none => []
    | some c => [extRangeRule E isIpv4 ext r.text c .dst, extRangeRule E isIpv4 ext r.text c .src]

/-- The ext client's own list after the re-creation pass: what it held, then
its ranges' rules. -/
def withRanges (ranges : List CidrText) (k : String) (ext : ExtClientInfo) (cfg : RulesCfg) :
    RulesCfg :=
  { cfg with rulesMap := cfg.rulesMap.insert k ((cfg.rulesMap.get? k).getD [] ++
      rangeRules E (E.isAddrIpv4 (E.ipNetString ext.extPeerAddr)) ext.extPeerAddr ranges) }

/-! ## The count check -/

/-- **The refresh looks at the count only.** From every manager state, a
refresh whose update has ranges, as many as recorded for the server, changes
neither the kernel nor the server's ingress table. -/
theorem refresh_skips_same_count (m : Mgr) (rep : Replies) (server : String) (upd : IngressInfo)
    (hne : upd.egressRanges ≠ [])
    (hlen : upd.egressRanges.length = ((m.currEgressRanges.get? server).getD []).length) :
    (m.call E rep (.refresh server upd)).2.rules = m.rules ∧
      (m.call E rep (.refresh server upd)).2.fetchRuleTable E server E.ingressTable =
        m.fetchRuleTable E server E.ingressTable := by
  have hr : refreshRanges E upd (((m.world rep).currEgressRanges.get? server).getD [])
      (m.fetchRuleTable E server E.ingressTable) (m.world rep) =
      (.ok, m.fetchRuleTable E server E.ingressTable, m.world rep) := by
    have h0 : ¬(upd.egressRanges.length = 0 ∨
        upd.egressRanges.length ≠ (((m.world rep).currEgressRanges.get? server).getD []).length) := by
      rintro (h | h)
      · exact hne (List.length_eq_zero.1 h)
      · exact h hlen
    rw [refreshRanges, if_neg h0]
  simp only [Mgr.call, Mgr.locked, refreshBody, hr]
  simp [Mgr.withWorld, Mgr.world, Mgr.saveRules, Mgr.fetchRuleTable]

/-- `10.0.0.0/8`, as `net.ParseCIDR` reads it. -/
def cidr10 : Cidr := ⟨v4InV6Prefix ++ [10, 0, 0, 0], true, 8, by decide, fun _ => by decide, by decide⟩

/-- `192.168.0.0/16`, as `net.ParseCIDR` reads it. -/
def cidr192 : Cidr := ⟨v4InV6Prefix ++ [192, 168, 0, 0], true, 16, by decide, fun _ => by decide, by decide⟩

/-- Ext client `x` at `10.1.0.2`, behind gateway `10.1.0.1`. -/
def extX : ExtClientInfo :=
  ⟨⟨[10, 1, 0, 1], [255, 255, 255, 255]⟩, ⟨[10, 1, 0, 0], [255, 255, 0, 0]⟩,
    ⟨[10, 1, 0, 2], [255, 255, 255, 255]⟩, "x", [], false⟩

/-- The two rules between `x` and `10.0.0.0/8`. -/
def staleRules : List RuleInfo :=
  rangeRules Env.sample true extX.extPeerAddr [⟨"10.0.0.0/8", some cidr10⟩]

/-- Server `s`'s ingress gateway after `x` was set up with range `10.0.0.0/8`. -/
def staleMgr : Mgr :=
  ⟨GoMap.empty.insert "s" (GoMap.empty.insert "x" ⟨true, GoMap.empty.insert "x" staleRules⟩),
    GoMap.empty, GoMap.empty.insert "s" [⟨"10.0.0.0/8", some cidr10⟩], [],
    staleRules.map (·.nfRule)⟩

/-- The range moves from `10.0.0.0/8` to `192.168.0.0/16`. -/
def movedRange : IngressInfo :=
  ⟨GoMap.empty.insert "x" extX, [⟨"192.168.0.0/16", some cidr192⟩]⟩

/-- The refresh of the moved range changes nothing: `x` keeps the rules of
`10.0.0.0/8` and gets none for `192.168.0.0/16`. -/
theorem refresh_keeps_moved_range :
    (movedRange.egressRanges ≠ [] ∧
      movedRange.egressRanges.length = ((staleMgr.currEgressRanges.get? "s").getD []).length) ∧
    (staleMgr.call Env.sample .allOk (.refresh "s" movedRange)).2.rules = staleMgr.rules ∧
      (staleMgr.call Env.sample .allOk (.refresh "s" movedRange)).2.fetchRuleTable Env.sample "s"
        Env.sample.ingressTable = staleMgr.fetchRuleTable Env.sample "s" Env.sample.ingressTable :=
  ⟨⟨List.cons_ne_nil _ _, rfl⟩,
    refresh_skips_same_count Env.sample staleMgr .allOk "s" movedRange (List.cons_ne_nil _ _) rfl⟩

/-! ## The refresh when it runs -/

variable {E}

theorem extRangeRoutes_of_ins_nil (isIpv4 : Bool) (ext : IPNet) (ranges : List CidrText)
    {w : World} (h : w.ins = []) :
    extRangeRoutes E isIpv4 ext ranges w =
      ({ w with rules := ((rangeRules E isIpv4 ext ranges).map (·.nfRule)).reverse ++ w.rules },
        rangeRules E isIpv4 ext ranges) := by
  induction ranges generalizing w with
  | nil => simp [extRangeRoutes, rangeRules]
  | cons r rs ih =>
    cases hp : r.parsed with
    | none => simp [extRangeRoutes, rangeRules, hp, ih h]
    | some c =>
      simp [extRangeRoutes, rangeRules, hp, World.insertRule_of_ins_nil, h, World.add, ih]

theorem dropRangeRules_ok {extKey : String} {rules kept : List RuleInfo} {w w' : World}
    (h : dropRangeRules E extKey rules w = (w', .ok kept)) :
    kept = rules.filter (fun r => !r.egressExtRule) ∧ w'.ins = w.ins := by
  induction rules generalizing w kept with
  | nil =>
    simp only [dropRangeRules, Prod.mk.injEq, Except.ok.injEq] at h
    simp [← h.1, ← h.2]
  | cons r rs ih =>
    unfold dropRangeRules at h
    split at h
    · rename_i hr
      rcases hd : w.deleteRule r.table r.chain (E.genRuleKey r.rule) with ⟨w1, _ | e⟩
      · rw [hd] at h
        obtain ⟨h1, h2⟩ := ih h
        have hw1 : w1.ins = w.ins := by
          rw [← World.deleteRule_ins w r.table r.chain (E.genRuleKey r.rule), hd]
        exact ⟨by simp [h1, hr], h2.trans hw1⟩
      · rw [hd] at h
        simp at h
    · rcases hrest : dropRangeRules E extKey rs w with ⟨w1, e | kept'⟩
      · rw [hrest] at h
        simp [Except.map] at h
      · rw [hrest] at h
        simp only [Prod.mk.injEq, Except.map, Except.ok.injEq] at h
        obtain ⟨rfl, rfl⟩ := h
        obtain ⟨h1, h2⟩ := ih hrest
        simp_all

/-- Ext client `k`'s own rule list holds no egress-range rule. -/
def OwnClean (t : RuleTable) (k : String) : Prop :=
  ∀ cfg, t.get? k = some cfg → ∀ r ∈ (cfg.rulesMap.get? k).getD [], r.egressExtRule = false

/-- The deletion pass, when it returns nil, leaves every entry of the table
without egress-range rules of its own, and no entry added or removed. -/
theorem dropRanges_ok {es : List (String × RulesCfg)} {t t' : RuleTable} {w w' : World}
    (hnd : (es.map Prod.fst).Nodup) (hagree : ∀ k cfg, (k, cfg) ∈ es → t.get? k = some cfg)
    (hcover : ∀ k, k ∉ es.map Prod.fst → OwnClean t k)
    (h : dropRanges E es t w = (.ok, t', w')) :
    (∀ k, OwnClean t' k) ∧ (∀ k, (t'.get? k).isSome = (t.get? k).isSome) ∧ w'.ins = w.ins := by
  induction es generalizing t w with
  | nil =>
    simp only [dropRanges, Prod.mk.injEq] at h
    obtain ⟨-, rfl, rfl⟩ := h
    exact ⟨fun k => hcover k (by simp), fun _ => rfl, rfl⟩
  | cons e es ih =>
    obtain ⟨k0, cfg0⟩ := e
    simp only [List.map_cons, List.nodup_cons] at hnd
    have h0 : t.get? k0 = some cfg0 := hagree k0 cfg0 (List.mem_cons_self _ _)
    have hagree' : ∀ k cfg, (k, cfg) ∈ es → t.get? k = some cfg :=
      fun k cfg hk => hagree k cfg (List.mem_cons_of_mem _ hk)
    have hne : ∀ k cfg, (k, cfg) ∈ es → k ≠ k0 := fun k cfg hk hkk =>
      hnd.1 (hkk ▸ List.mem_map_of_mem Prod.fst hk)
    unfold dropRanges at h
    cases hown : cfg0.rulesMap.get? k0 with
    | none =>
      rw [hown] at h
      refine ih hnd.2 hagree' (fun k hk => ?_) h
      by_cases hk0 : k = k0
      · subst hk0
        intro cfg hcfg
        rw [h0] at hcfg
        cases hcfg
        simp [hown]
      · exact hcover k (by simp [hk0, hk])
    | some rules =>
      simp only [hown] at h
      rcases hd : dropRangeRules E k0 rules w with ⟨w1, e | kept⟩
      · rw [hd] at h
        simp at h
      · rw [hd] at h
        obtain ⟨hkept, hins⟩ := dropRangeRules_ok hd
        have hagree1 : ∀ k cfg, (k, cfg) ∈ es →
            (t.insert k0 { cfg0 with rulesMap := cfg0.rulesMap.insert k0 kept } : RuleTable).get? k =
              some cfg := fun k cfg hk => by
          simp [hne k cfg hk, hagree' k cfg hk]
        have hcover1 : ∀ k, k ∉ es.map Prod.fst →
            OwnClean (t.insert k0 { cfg0 with rulesMap := cfg0.rulesMap.insert k0 kept }) k := by
          intro k hk cfg hcfg
          by_cases hk0 : k = k0
          · subst hk0
            simp only [GoMap.get?_insert, if_true, Option.some.injEq] at hcfg
            subst hcfg
            simp [hkept]
          · simp only [GoMap.get?_insert, hk0, if_false] at hcfg
            exact hcover k (by simp [hk0, hk]) cfg hcfg
        obtain ⟨hc, hs, hw⟩ := ih hnd.2 hagree1 hcover1 h
        refine ⟨hc, fun k => ?_, hw.trans hins⟩
        rw [hs k]
        by_cases hk0 : k = k0 <;> simp [hk0, h0]

/-- The re-creation pass with every `Flush` succeeding: each ext client of the
update with an entry gets its ranges' rules after its own, and the kernel
gets them; no other entry changes and no kernel rule goes. -/
theorem addRanges_of_ins_nil {ranges : List CidrText} {es : List (String × ExtClientInfo)}
    {t t' : RuleTable} {w w' : World} (hnd : (es.map Prod.fst).Nodup)
    (h : addRanges E ranges es t w = (t', w')) (hins : w.ins = []) :
    (∀ k, k ∉ es.map Prod.fst → t'.get? k = t.get? k) ∧
    (∀ k ext, (k, ext) ∈ es → t'.get? k = (t.get? k).map (withRanges E ranges k ext)) ∧
    (∀ k ext, (k, ext) ∈ es → (t.get? k).isSome →
      ∀ r ∈ rangeRules E (E.isAddrIpv4 (E.ipNetString ext.extPeerAddr)) ext.extPeerAddr ranges,
        r.nfRule ∈ w'.rules) ∧
    (∀ x ∈ w.rules, x ∈ w'.rules) := by
  induction es generalizing t w with
  | nil =>
    simp only [addRanges, Prod.mk.injEq] at h
    obtain ⟨rfl, rfl⟩ := h
    simp
  | cons e es ih =>
    obtain ⟨k0, ext0⟩ := e
    simp only [List.map_cons, List.nodup_cons] at hnd
    have hne : ∀ k ext, (k, ext) ∈ es → k ≠ k0 := fun k ext hk hkk =>
      hnd.1 (hkk ▸ List.mem_map_of_mem Prod.fst hk)
    unfold addRanges at h
    cases h0 : t.get? k0 with
    | none =>
      simp only [h0] at h
      obtain ⟨hf, hm, hr, hmono⟩ := ih hnd.2 h hins
      refine ⟨fun k hk => hf k (fun h => hk (List.mem_cons_of_mem _ h)), fun k ext hk => ?_,
        fun k ext hk => ?_, hmono⟩
      · rcases List.mem_cons.1 hk with hk | hk
        · cases hk
          simp [hf k0 hnd.1, h0]
        · exact hm k ext hk
      · rcases List.mem_cons.1 hk with hk | hk
        · cases hk
          simp [h0]
        · exact hr k ext hk
    | some cfg =>
      simp only [h0, extRangeRoutes_of_ins_nil _ _ _ hins] at h
      obtain ⟨hf, hm, hr, hmono⟩ := ih hnd.2 h hins
      refine ⟨fun k hk => ?_, fun k ext hk => ?_, fun k ext hk => ?_, fun x hx => hmono x ?_⟩
      · have hk0 : k ≠ k0 := fun h => hk (h ▸ List.mem_cons_self _ _)
        rw [hf k (fun h => hk (List.mem_cons_of_mem _ h)), RuleTable.get?_putRules, if_neg hk0]
      · rcases List.mem_cons.1 hk with hk | hk
        · cases hk
          rw [hf k0 hnd.1]
          simp [h0, withRanges]
        · rw [hm k ext hk]
          simp [hne k ext hk]
      · rcases List.mem_cons.1 hk with hk | hk
        · cases hk
          intro _ r hr
          exact hmono _ (by simp only [List.mem_append, List.mem_reverse, List.mem_map]; exact .inl ⟨r, hr, rfl⟩)
        · simpa [hne k ext hk] using hr k ext hk
      · simp [hx]

theorem rangeRules_egressExtRule {isIpv4 : Bool} {ext : IPNet} {ranges : List CidrText}
    {r : RuleInfo} (h : r ∈ rangeRules E isIpv4 ext ranges) : r.egressExtRule = true := by
  simp only [rangeRules, List.mem_flatMap] at h
  obtain ⟨x, -, hx⟩ := h
  split at hx
  · cases hx
  · simp only [List.mem_cons, List.mem_singleton, List.not_mem_nil, or_false] at hx
    rcases hx with rfl | rfl <;> rfl

/-- **The refresh, when it runs.** With every kernel operation succeeding, a
refresh that does not skip and returns nil leaves every ext client that has
an entry and is in the update with exactly its ranges' two rules each as the
egress-range rules of its own list, all of them in the kernel. -/
theorem refreshRanges_rebuilds {upd : IngressInfo} {curr : List CidrText} {t t' : RuleTable}
    {w w' : World}
    (hrun : upd.egressRanges.length = 0 ∨ upd.egressRanges.length ≠ curr.length)
    (h : refreshRanges E upd curr t w = (.ok, t', w')) (hins : w.ins = [])
    {extKey : String} {ext : ExtClientInfo} (hext : upd.extPeers.get? extKey = some ext)
    (hkey : (t.get? extKey).isSome) :
    ∃ cfg, t'.get? extKey = some cfg ∧
      ((cfg.rulesMap.get? extKey).getD []).filter (·.egressExtRule) =
        rangeRules E (E.isAddrIpv4 (E.ipNetString ext.extPeerAddr)) ext.extPeerAddr upd.egressRanges ∧
      ∀ r ∈ rangeRules E (E.isAddrIpv4 (E.ipNetString ext.extPeerAddr)) ext.extPeerAddr
        upd.egressRanges, r.nfRule ∈ w'.rules := by
  unfold refreshRanges at h
  rw [if_pos hrun] at h
  rcases hd : dropRanges E t.entries t w with ⟨o, t1, w1⟩
  rw [hd] at h
  cases o with
  | error e => simp at h
  | panic => simp at h
  | ok =>
    obtain ⟨hclean, hsome, hw1⟩ := dropRanges_ok t.nodup (fun k cfg hk => t.get?_of_mem hk)
      (fun k hk cfg hcfg => by rw [t.get?_eq_none_of_not_mem hk] at hcfg; cases hcfg) hd
    obtain ⟨cfg1, hcfg1⟩ := Option.isSome_iff_exists.1 (hsome extKey ▸ hkey)
    have hown : ((cfg1.rulesMap.get? extKey).getD []).filter (·.egressExtRule) = [] :=
      List.filter_eq_nil_iff.2 fun r hr => by simp [hclean extKey cfg1 hcfg1 r hr]
    simp only at h
    split_ifs at h with h0
    · simp only [Prod.mk.injEq] at h
      obtain ⟨-, rfl, rfl⟩ := h
      refine ⟨cfg1, hcfg1, ?_, ?_⟩ <;> simp [List.length_eq_zero.1 h0, rangeRules, hown]
    · simp only [Prod.mk.injEq] at h
      obtain ⟨-, h⟩ := h
      have ha : addRanges E upd.egressRanges upd.extPeers.entries t1 w1 = (t', w') :=
        Prod.ext h.1 h.2
      obtain ⟨-, hm, hr, -⟩ := addRanges_of_ins_nil upd.extPeers.nodup ha (hw1.trans hins)
      have hmem := upd.extPeers.mem_of_get? hext
      refine ⟨withRanges E upd.egressRanges extKey ext cfg1, by rw [hm extKey ext hmem, hcfg1]; rfl,
        ?_, hr extKey ext hmem (by rw [hcfg1]; rfl)⟩
      simpa [withRanges, List.filter_append, hown] using fun r hr => rangeRules_egressExtRule hr

variable (E)

/-- **The refresh, when it runs, at the manager.** From every manager state,
with every kernel operation succeeding: a refresh that does not skip and
returns nil leaves each ext client present both in the server's ingress
table and in the update with exactly the two ACCEPT rules of each range
`net.ParseCIDR` accepts as the egress-range rules of its own list, and the
kernel holds all of them. -/
theorem refresh_rebuilds_ranges (m : Mgr) (server : String) (upd : IngressInfo)
    (hrun : upd.egressRanges.length = 0 ∨
      upd.egressRanges.length ≠ ((m.currEgressRanges.get? server).getD []).length)
    (hok : (m.call E .allOk (.refresh server upd)).1 = .ok)
    (extKey : String) (ext : ExtClientInfo) (hext : upd.extPeers.get? extKey = some ext)
    (hkey : ((m.fetchRuleTable E server E.ingressTable).get? extKey).isSome) :
    ∃ cfg, ((m.call E .allOk (.refresh server upd)).2.fetchRuleTable E server
        E.ingressTable).get? extKey = some cfg ∧
      ((cfg.rulesMap.get? extKey).getD []).filter (·.egressExtRule) =
        rangeRules E (E.isAddrIpv4 (E.ipNetString ext.extPeerAddr)) ext.extPeerAddr upd.egressRanges ∧
      ∀ r ∈ rangeRules E (E.isAddrIpv4 (E.ipNetString ext.extPeerAddr)) ext.extPeerAddr
        upd.egressRanges, r.nfRule ∈ (m.call E .allOk (.refresh server upd)).2.rules := by
  rcases hr : refreshRanges E upd (((m.world .allOk).currEgressRanges.get? server).getD [])
    (m.fetchRuleTable E server E.ingressTable) (m.world .allOk) with ⟨o, t', w'⟩
  have hcall : m.call E .allOk (.refresh server upd) = (o, (m.withWorld
      { w' with currEgressRanges := w'.currEgressRanges.insert server upd.egressRanges }).saveRules
        E server E.ingressTable t') := by
    simp only [Mgr.call, Mgr.locked, refreshBody, hr]
  rw [hcall] at hok ⊢
  cases hok
  obtain ⟨cfg, h1, h2, h3⟩ := refreshRanges_rebuilds hrun hr rfl hext hkey
  exact ⟨cfg, by simpa [Mgr.saveRules, Mgr.fetchRuleTable] using h1, h2,
    by simpa [Mgr.saveRules, Mgr.withWorld] using h3⟩

/-- Both ranges, after `10.0.0.0/8` alone: the refresh runs, and `x` ends
with the rules of both. -/
def bothRanges : IngressInfo :=
  ⟨GoMap.empty.insert "x" extX, [⟨"10.0.0.0/8", some cidr10⟩, ⟨"192.168.0.0/16", some cidr192⟩]⟩

theorem refresh_rebuilds_both_ranges :
    (bothRanges.egressRanges.length = 0 ∨
      bothRanges.egressRanges.length ≠ ((staleMgr.currEgressRanges.get? "s").getD []).length) ∧
    (staleMgr.call Env.sample .allOk (.refresh "s" bothRanges)).1 = .ok ∧
    bothRanges.extPeers.get? "x" = some extX ∧
    ((staleMgr.fetchRuleTable Env.sample "s" Env.sample.ingressTable).get? "x").isSome ∧
    ∃ cfg, ((staleMgr.call Env.sample .allOk (.refresh "s" bothRanges)).2.fetchRuleTable Env.sample
        "s" Env.sample.ingressTable).get? "x" = some cfg ∧
      ((cfg.rulesMap.get? "x").getD []).filter (·.egressExtRule) =
        rangeRules Env.sample (Env.sample.isAddrIpv4 (Env.sample.ipNetString extX.extPeerAddr))
          extX.extPeerAddr bothRanges.egressRanges ∧
      ∀ r ∈ rangeRules Env.sample (Env.sample.isAddrIpv4 (Env.sample.ipNetString extX.extPeerAddr))
        extX.extPeerAddr bothRanges.egressRanges,
        r.nfRule ∈ (staleMgr.call Env.sample .allOk (.refresh "s" bothRanges)).2.rules :=
  ⟨.inr (by decide), by decide, rfl, rfl,
    refresh_rebuilds_ranges Env.sample staleMgr "s" bothRanges (.inr (by decide)) (by decide) "x" extX
      rfl rfl⟩

end Router

end Netclient
