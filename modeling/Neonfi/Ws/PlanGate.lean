import Neonfi.Ws.Model

/-!
# The plan gate of the live prices

An upgrade that has read a paid subscription registers its socket later.  When a `plan_changed`
message is handled in between, the socket that is registered afterwards stays open.
-/

namespace Neonfi.Ws

open Lib
open Ledger (Millis Plan)
open Billing (Subscription SubscriptionTable)
open Sessions (SessionTable)

/-- No settled user has a socket that gets the prices. -/
def Gated (s : State) : Prop := ∀ userId ∈ s.settled, ∀ sid, ¬ s.registry.Live userId sid

/-- The user of an upgrade that has read the subscription, and what it has read. -/
def Work.planRead : Work → Option (ℕ × Option Subscription)
  | .upgrade _ (.loaded userId _ subscription) => some (userId, subscription)
  | _ => none

/-- Every upgrade of the user that has read the subscription will find the plan free. -/
def NoUpgradePending (s : State) (userId : ℕ) : Prop :=
  ∀ id work subscription, s.requests id = some work →
    work.planRead = some (userId, subscription) → effectivePlan subscription s.now = .free

/-- A `plan_changed` message that ends on a free plan finds no upgrade of the user past its plan
check. -/
def Undisturbed (s : State) (act : Act) : Prop :=
  ∀ id evt subscription, act = .go id →
    s.requests id = some (.userEvent (some evt) (.loaded subscription)) →
      effectivePlan subscription s.now = .free → s.plan evt.userId = .free →
        NoUpgradePending s evt.userId

/-! ## Plans over time -/

/-- A subscription that has ended does not come back by itself. -/
theorem effectivePlan_free_mono {subscription : Option Subscription} {now now' : Millis}
    (h : effectivePlan subscription now = .free) (hle : now ≤ now') :
    effectivePlan subscription now' = .free := by
  unfold effectivePlan at h ⊢
  cases subscription with
  | none => rfl
  | some sub =>
      dsimp only at h ⊢
      split
      · next hlater =>
          have hearlier : isSubscriptionEffectivelyActive sub now = true := by
            unfold isSubscriptionEffectivelyActive at hlater ⊢
            rw [decide_eq_true_eq] at hlater ⊢
            refine hlater.imp_right fun ⟨hcancelled, hend⟩ => ⟨hcancelled, ?_⟩
            obtain ⟨period, hperiod, hlt⟩ := Option.any_eq_true _ _ |>.mp hend
            rw [decide_eq_true_eq] at hlt
            exact (Option.any_eq_true _ _).mpr
              ⟨period, hperiod, decide_eq_true (lt_of_le_of_lt hle hlt)⟩
          rwa [if_pos hearlier] at h
      · rfl

/-! ## The loop over the sockets -/

section

variable {s s' : State} {userId sid : ℕ}

theorem wsBySocketId_downgrade (reg : Registry) (socketId : ℕ) :
    (reg.downgrade socketId).wsBySocketId sid =
      if sid = socketId ∧ reg.wsBySocketId sid = some .opened then some .closing
      else reg.wsBySocketId sid := by
  unfold Registry.downgrade
  split
  · next hopen =>
      unfold Registry.setReadyState
      by_cases hsid : sid = socketId
      · subst hsid
        rw [if_pos ⟨rfl, hopen⟩]
        dsimp only
        rw [if_pos rfl, hopen]
        rfl
      · rw [if_neg fun h => hsid h.1]
        exact if_neg hsid
  · next hnot =>
      rw [if_neg]
      rintro ⟨rfl, hopen⟩
      exact hnot hopen

theorem socketsByUser_downgrade (reg : Registry) (socketId : ℕ) :
    (reg.downgrade socketId).socketsByUser = reg.socketsByUser ∧
      (reg.downgrade socketId).nextSocketId = reg.nextSocketId := by
  unfold Registry.downgrade
  split
  · exact ⟨rfl, rfl⟩
  · exact ⟨rfl, rfl⟩

/-- What the loop leaves alone, and which sockets it closes. -/
structure Downgraded (s s' : State) (sids : List ℕ) : Prop where
  now : s'.now = s.now
  subscriptions : s'.subscriptions = s.subscriptions
  requests : s'.requests = s.requests
  settled : s'.settled = s.settled
  socketsByUser : s'.registry.socketsByUser = s.registry.socketsByUser
  nextSocketId : s'.registry.nextSocketId = s.registry.nextSocketId
  wsBySocketId : ∀ sid, s'.registry.wsBySocketId sid =
    if sid ∈ sids ∧ s.registry.wsBySocketId sid = some .opened then some .closing
    else s.registry.wsBySocketId sid

theorem downgraded_foldl (sids : List ℕ) (s : State) :
    Downgraded s
      (sids.foldl
        (fun s sid =>
          { s with
            registry := s.registry.downgrade sid
            sent := s.sent ++ s.registry.downgradeFrames sid }) s) sids := by
  induction sids generalizing s with
  | nil => exact ⟨rfl, rfl, rfl, rfl, rfl, rfl, fun sid => by simp⟩
  | cons x sids ih =>
      rw [List.foldl_cons]
      have hfirst := socketsByUser_downgrade s.registry x
      obtain ⟨hnow, hsubs, hreqs, hsettled, hby, hnext, hws⟩ := ih
        { s with
          registry := s.registry.downgrade x
          sent := s.sent ++ s.registry.downgradeFrames x }
      refine ⟨hnow, hsubs, hreqs, hsettled, hby.trans hfirst.1, hnext.trans hfirst.2,
        fun sid => ?_⟩
      rw [hws]
      dsimp only
      rw [wsBySocketId_downgrade]
      by_cases hopen : s.registry.wsBySocketId sid = some .opened
      · rw [hopen]
        by_cases hx : sid = x
        · simp [hx]
        · simp [hx]
      · simp [hopen]

theorem downgraded_downgradeSockets (s : State) (userId : ℕ) :
    Downgraded s (s.downgradeSockets userId) (s.registry.socketsByUser userId) :=
  downgraded_foldl _ s

/-- The loop opens nothing, and leaves no open socket of its user. -/
theorem Downgraded.live {sids : List ℕ} (h : Downgraded s s' sids)
    (hlive : s'.registry.Live userId sid) : s.registry.Live userId sid ∧ sid ∉ sids := by
  obtain ⟨hmem, hopen⟩ := hlive
  rw [h.socketsByUser] at hmem
  rw [h.wsBySocketId] at hopen
  split at hopen
  · cases hopen
  · next hnot => exact ⟨⟨hmem, hopen⟩, fun hsid => hnot ⟨hsid, hopen⟩⟩

end

/-! ## The invariant -/

/-- What holds where every `plan_changed` message is handled undisturbed. -/
structure Gate (s : State) : Prop where
  fresh : ∀ userId, ∀ sid ∈ s.registry.socketsByUser userId, sid < s.registry.nextSocketId
  free : ∀ userId ∈ s.settled, s.plan userId = .free
  gated : Gated s
  pending : ∀ userId ∈ s.settled, NoUpgradePending s userId

section

variable {s s' : State} {act : Act} {id userId sid : ℕ} {work : Work}

theorem gate_start (now : Millis) (subscriptions : SubscriptionTable)
    (sessions : SessionTable) : Gate (.start now subscriptions sessions) where
  fresh := nofun
  free := nofun
  gated := nofun
  pending := nofun

/-- A step that leaves the clock, the plans and the settled users alone. -/
theorem Gate.of_frame (h : Gate s) (hnow : s'.now = s.now)
    (hsubs : s'.subscriptions = s.subscriptions) (hsettled : s'.settled = s.settled)
    (hfresh : ∀ userId, ∀ sid ∈ s'.registry.socketsByUser userId, sid < s'.registry.nextSocketId)
    (hlive : ∀ userId ∈ s.settled, ∀ sid, s'.registry.Live userId sid →
      s.registry.Live userId sid)
    (hpending : ∀ userId ∈ s.settled, NoUpgradePending s userId → NoUpgradePending s' userId) :
    Gate s' where
  fresh := hfresh
  free := by
    unfold State.plan
    rw [hsettled, hsubs, hnow]
    exact h.free
  gated := by
    intro userId hmem sid hsid
    rw [hsettled] at hmem
    exact h.gated userId hmem sid (hlive userId hmem sid hsid)
  pending := by
    rw [hsettled]
    exact fun userId hmem => hpending userId hmem (h.pending userId hmem)

theorem Gate.put (h : Gate s)
    (hwork : ∀ userId ∈ s.settled, ∀ subscription,
      work.planRead = some (userId, subscription) → effectivePlan subscription s.now = .free) :
    Gate (s.put id work) := by
  refine h.of_frame rfl rfl rfl h.fresh (fun _ _ _ hlive => hlive) ?_
  intro userId hmem hpending id' work' subscription hid' hread
  change Function.update s.requests id (some work) id' = _ at hid'
  by_cases hid : id' = id
  · subst hid
    rw [Function.update_self] at hid'
    cases hid'
    exact hwork userId hmem subscription hread
  · rw [Function.update_of_ne hid] at hid'
    exact hpending id' work' subscription hid' hread

theorem Gate.put_of_unread (h : Gate s) (hwork : work.planRead = none) :
    Gate (s.put id work) := by
  refine h.put fun userId _ subscription hread => ?_
  rw [hwork] at hread
  cases hread

theorem NoUpgradePending.erase (h : NoUpgradePending s userId) (hnow : s'.now = s.now)
    (hrequests : s'.requests = Function.update s.requests id none) :
    NoUpgradePending s' userId := by
  intro id' work subscription hid' hread
  rw [hrequests] at hid'
  rw [hnow]
  by_cases hid : id' = id
  · subst hid
    rw [Function.update_self] at hid'
    cases hid'
  · rw [Function.update_of_ne hid] at hid'
    exact h id' work subscription hid' hread

theorem Gate.finish (h : Gate s) (answer : Answer) : Gate (s.finish id answer) :=
  h.of_frame rfl rfl rfl h.fresh (fun _ _ _ hlive => hlive)
    fun _ _ hpending => hpending.erase rfl rfl

theorem gate_prune
    (hfresh : ∀ userId, ∀ sid ∈ s.registry.socketsByUser userId, sid < s.registry.nextSocketId)
    (hsettled : ∀ userId ∈ s.settled, s.plan userId = .free →
      (∀ sid, ¬ s.registry.Live userId sid) ∧ NoUpgradePending s userId) : Gate s.prune := by
  have hmem : ∀ {userId}, userId ∈ s.prune.settled →
      userId ∈ s.settled ∧ s.plan userId = .free := by
    intro userId h
    rw [State.prune, List.mem_filter, decide_eq_true_eq] at h
    exact h
  exact
    { fresh := hfresh
      free := fun userId h => (hmem h).2
      gated := fun userId h => (hsettled userId (hmem h).1 (hmem h).2).1
      pending := fun userId h => (hsettled userId (hmem h).1 (hmem h).2).2 }

/-- Only a user who is not settled may get a new socket. -/
theorem Gate.handleConnection (h : Gate s) (hnot : userId ∉ s.settled) :
    Gate (s.handleConnection id userId) := by
  refine h.of_frame rfl rfl rfl ?_ ?_ fun _ _ hpending => hpending.erase rfl rfl
  · intro other sid hsid
    change sid ∈ Function.update s.registry.socketsByUser userId _ other at hsid
    change sid < s.registry.nextSocketId + 1
    by_cases hother : other = userId
    · subst hother
      rw [Function.update_self, List.mem_cons] at hsid
      obtain rfl | hsid := hsid
      · omega
      · have hlt := h.fresh other sid hsid
        omega
    · rw [Function.update_of_ne hother] at hsid
      have hlt := h.fresh other sid hsid
      omega
  · rintro other hmem sid ⟨hsid, hopen⟩
    have hother : other ≠ userId := fun heq => hnot (heq ▸ hmem)
    change sid ∈ Function.update s.registry.socketsByUser userId _ other at hsid
    change Function.update s.registry.wsBySocketId _ _ sid = _ at hopen
    rw [Function.update_of_ne hother] at hsid
    have hlt := h.fresh other sid hsid
    rw [Function.update_of_ne (by omega)] at hopen
    exact ⟨hsid, hopen⟩

theorem Gate.takeTicket (h : Gate s) {req : UpgradeRequest} {token : String} :
    Gate (s.takeTicket id req token) := by
  have htaken : Gate { s with tickets := Function.update s.tickets token none } :=
    h.of_frame rfl rfl rfl h.fresh (fun _ _ _ hlive => hlive) fun _ _ hp => hp
  unfold State.takeTicket
  extract_lets value s₁
  cases value with
  | none => exact htaken.finish _
  | some ticket =>
      dsimp only
      split
      · exact htaken.put_of_unread rfl
      · exact htaken.finish _

theorem Gate.upgrade (h : Gate s) {req : UpgradeRequest} {phase : Authorizing}
    (hid : s.requests id = some (.upgrade req phase)) : Gate (s.upgrade id req phase) := by
  unfold State.upgrade
  cases phase with
  | asked =>
      dsimp only
      split
      · exact h.finish _
      · split
        · exact h.finish _
        · exact h.takeTicket
  | granted userId sessionId => exact h.put_of_unread rfl
  | found userId sessionId session =>
      dsimp only
      split
      · exact h.put_of_unread rfl
      · exact h.finish _
  | live userId sessionId =>
      -- a settled user has a free plan, and this is what the upgrade reads
      refine h.put fun other hmem subscription hread => ?_
      cases hread
      exact h.free userId hmem
  | loaded userId sessionId subscription =>
      dsimp only
      split
      · exact h.finish _
      · next hpaid =>
          refine h.handleConnection fun hmem => hpaid ?_
          exact h.pending userId hmem id _ subscription hid rfl

theorem Gate.planChanged (h : Gate s) {subscription : Option Subscription}
    (hundisturbed : effectivePlan subscription s.now = .free → s.plan userId = .free →
      NoUpgradePending s userId) : Gate (s.planChanged id userId subscription) := by
  unfold State.planChanged
  split
  · next hfree =>
      have hdown := downgraded_downgradeSockets s userId
      have hplan : ∀ other, (s.downgradeSockets userId).plan other = s.plan other := by
        intro other
        unfold State.plan
        rw [hdown.subscriptions, hdown.now]
      refine Gate.finish (gate_prune ?_ ?_) _
      · dsimp only
        rw [hdown.socketsByUser, hdown.nextSocketId]
        exact h.fresh
      · intro other hmem hnow
        change other ∈ userId :: (s.downgradeSockets userId).settled at hmem
        change (s.downgradeSockets userId).plan other = .free at hnow
        rw [hplan] at hnow
        have hpending : NoUpgradePending s other := by
          obtain rfl | hmem := List.mem_cons.mp hmem
          · exact hundisturbed hfree hnow
          · exact h.pending other (hdown.settled ▸ hmem)
        constructor
        · intro sid hsid
          have hlive := hdown.live hsid
          obtain rfl | hmem := List.mem_cons.mp hmem
          · exact hlive.2 hlive.1.1
          · exact h.gated other (hdown.settled ▸ hmem) sid hlive.1
        · intro id' work subscription' hid' hwork
          change (s.downgradeSockets userId).requests id' = _ at hid'
          change effectivePlan subscription' (s.downgradeSockets userId).now = .free
          rw [hdown.requests] at hid'
          rw [hdown.now]
          exact hpending id' work subscription' hid' hwork
  · exact h.finish _

theorem planRead_of_isNew (h : work.isNew) : work.planRead = none := by
  cases work with
  | upgrade req phase =>
      obtain rfl := of_decide_eq_true h
      rfl
  | userEvent evt phase => rfl

/-- Every step keeps the invariant while messages are handled undisturbed. -/
theorem Gate.step (h : Gate s) (hstep : Steps s act s') (hok : Undisturbed s act) : Gate s' := by
  unfold Steps State.step at hstep
  cases act with
  | elapse ms =>
      cases hstep
      refine gate_prune h.fresh fun userId hmem hfree => ⟨h.gated userId hmem, ?_⟩
      intro id work subscription hid hread
      exact effectivePlan_free_mono (h.pending userId hmem id work subscription hid hread)
        (Int.le_add_of_nonneg_right (Int.natCast_nonneg ms))
  | write subscriptions sessions =>
      cases hstep
      exact gate_prune h.fresh fun userId hmem _ => ⟨h.gated userId hmem, h.pending userId hmem⟩
  | issue token ticket =>
      cases hstep
      exact h.of_frame rfl rfl rfl h.fresh (fun _ _ _ hlive => hlive) fun _ _ hp => hp
  | expire token =>
      cases hstep
      exact h.of_frame rfl rfl rfl h.fresh (fun _ _ _ hlive => hlive) fun _ _ hp => hp
  | request id work =>
      dsimp only at hstep
      split at hstep
      · next hnew =>
          cases hstep
          exact h.put_of_unread (planRead_of_isNew hnew.1)
      · cases hstep
  | go id =>
      obtain ⟨work, hwork, rfl⟩ := Option.map_eq_some_iff.mp hstep
      unfold State.go
      cases work with
      | upgrade req phase => exact h.upgrade hwork
      | userEvent evt phase =>
          unfold State.handleUserEvent
          cases phase with
          | received =>
              dsimp only
              split
              · exact h.finish _
              · exact h.put_of_unread rfl
          | loaded subscription =>
              cases evt with
              | none => exact h.finish _
              | some evt => exact h.planChanged (hok id evt subscription rfl hwork)
  | drop id =>
      cases hstep
      exact h.of_frame rfl rfl rfl h.fresh (fun _ _ _ hlive => hlive)
        fun _ _ hpending => hpending.erase rfl rfl
  | hangUp socketId =>
      cases hstep
      refine h.of_frame rfl rfl rfl h.fresh ?_ fun _ _ hp => hp
      rintro userId - sid ⟨hmem, hopen⟩
      refine ⟨hmem, ?_⟩
      change (if sid = socketId then _ else _) = _ at hopen
      split at hopen
      · obtain ⟨_, -, hclosing⟩ := Option.map_eq_some_iff.mp hopen
        cases hclosing
      · exact hopen
  | close socketId owner =>
      dsimp only at hstep
      split at hstep
      · cases hstep
        have hkept : ∀ {userId sid},
            sid ∈ (s.registry.unregisterSocket socketId owner).socketsByUser userId →
              sid ∈ s.registry.socketsByUser userId := by
          intro userId sid hmem
          change sid ∈ Function.update s.registry.socketsByUser owner _ userId at hmem
          by_cases howner : userId = owner
          · subst howner
            rw [Function.update_self] at hmem
            exact (List.mem_filter.mp hmem).1
          · rwa [Function.update_of_ne howner] at hmem
        refine h.of_frame rfl rfl rfl (fun userId sid hmem => h.fresh userId sid (hkept hmem)) ?_
          fun _ _ hp => hp
        rintro userId - sid ⟨hmem, hopen⟩
        refine ⟨hkept hmem, ?_⟩
        change Function.update s.registry.wsBySocketId socketId none sid = _ at hopen
        by_cases hsid : sid = socketId
        · subst hsid
          rw [Function.update_self] at hopen
          cases hopen
        · rwa [Function.update_of_ne hsid] at hopen
      · cases hstep

end

/-! ## Undisturbed messages are needed -/

section

variable {s s' : State} {act : Act}

/-- In every run whose `plan_changed` messages are handled undisturbed the invariant holds. -/
theorem gate_of_run {now : Millis} {subscriptions : SubscriptionTable} {sessions : SessionTable}
    {acts : List Act}
    (h : Run (Guarded Steps Undisturbed) (.start now subscriptions sessions) acts s) : Gate s :=
  h.invariant (fun _ _ _ hgate hstep => hgate.step hstep.1 hstep.2)
    (gate_start now subscriptions sessions)

theorem upgrade_of_planRead {work : Work} {userId : ℕ} {subscription : Option Subscription}
    (h : work.planRead = some (userId, subscription)) :
    ∃ req sessionId, work = .upgrade req (.loaded userId sessionId subscription) := by
  cases work with
  | userEvent evt phase => cases h
  | upgrade req phase =>
      cases phase with
      | loaded userId sessionId subscription =>
          cases h
          exact ⟨req, sessionId, rfl⟩
      | asked => cases h
      | granted userId sessionId => cases h
      | found userId sessionId session => cases h
      | live userId sessionId => cases h

/-- An upgrade that is past its plan check when a message is handled registers its socket in the
next step. -/
theorem exists_live_of_disturbed (hstep : Steps s act s') (hnot : ¬ Undisturbed s act) :
    ∃ id t, Run (Guarded Steps Undisturbed) s' [.go id] t ∧ ¬ Gated t := by
  unfold Undisturbed NoUpgradePending at hnot
  push Not at hnot
  obtain ⟨id, evt, subscription, rfl, hwork, hread, hplan, id', work', subscription', hupgrade,
    hplanRead, hpaid⟩ := hnot
  obtain ⟨req, sessionId, rfl⟩ := upgrade_of_planRead hplanRead
  have hid : id' ≠ id := by
    rintro rfl
    rw [hwork] at hupgrade
    cases hupgrade
  have hs' : s' = s.planChanged id evt.userId subscription := by
    change (s.requests id).map (s.go id) = some s' at hstep
    rw [hwork] at hstep
    exact (Option.some.inj hstep).symm
  have hdown := downgraded_downgradeSockets s evt.userId
  have hplanned : s' = (({ s.downgradeSockets evt.userId with
      settled := evt.userId :: (s.downgradeSockets evt.userId).settled } : State).prune).finish id
        .handled := by
    rw [hs', State.planChanged, if_pos hread]
  have hrequest : s'.requests id' =
      some (.upgrade req (.loaded evt.userId sessionId subscription')) := by
    rw [hplanned]
    change Function.update (s.downgradeSockets evt.userId).requests id none id' = _
    rw [Function.update_of_ne hid, hdown.requests, hupgrade]
  have hnow : s'.now = s.now := by
    rw [hplanned]
    exact hdown.now
  have hsettled : evt.userId ∈ s'.settled := by
    rw [hplanned]
    change evt.userId ∈ List.filter _ _
    rw [List.mem_filter, decide_eq_true_eq]
    refine ⟨List.mem_cons_self, ?_⟩
    change effectivePlan ((s.downgradeSockets evt.userId).subscriptions.findUniq? evt.userId)
      (s.downgradeSockets evt.userId).now = .free
    rw [hdown.subscriptions, hdown.now]
    exact hplan
  have hgo : Steps s' (.go id') (s'.handleConnection id' evt.userId) := by
    change (s'.requests id').map (s'.go id') = _
    rw [hrequest, Option.map_some]
    change some (if _ then _ else _) = _
    rw [hnow, if_neg hpaid]
  refine ⟨id', s'.handleConnection id' evt.userId, .cons ⟨hgo, ?_⟩ (.nil _), ?_⟩
  · intro id'' evt' subscription'' hact hid''
    cases hact
    rw [hrequest] at hid''
    cases hid''
  · intro hgated
    refine hgated evt.userId hsettled s'.registry.nextSocketId ⟨?_, ?_⟩
    · change _ ∈ Function.update s'.registry.socketsByUser evt.userId _ evt.userId
      rw [Function.update_self]
      exact List.mem_cons_self
    · change Function.update s'.registry.wsBySocketId _ _ _ = _
      exact Function.update_self _ _ _

/-- While every message is handled undisturbed the gate holds, and a step keeps it so for good
exactly when it meets the same condition. -/
theorem planGate_iff_undisturbed {now : Millis} {subscriptions : SubscriptionTable}
    {sessions : SessionTable} {acts : List Act}
    (h : Run (Guarded Steps Undisturbed) (.start now subscriptions sessions) acts s) :
    Gated s ∧ ∀ act s', Steps s act s' →
      (Undisturbed s act ↔
        ∀ acts' t, Run (Guarded Steps Undisturbed) s' acts' t → Gated t) := by
  have hgate := gate_of_run h
  refine ⟨hgate.gated, fun act s' hstep => ⟨fun hok acts' t hrun => ?_, fun hall => ?_⟩⟩
  · have hlater : Gate t :=
      hrun.invariant (fun _ _ _ hgate hstep => hgate.step hstep.1 hstep.2) (hgate.step hstep hok)
    exact hlater.gated
  · by_contra hnot
    obtain ⟨id, t, hrun, hungated⟩ := exists_live_of_disturbed hstep hnot
    exact hungated (hall _ _ hrun)

end

/-- Only the message is in flight. -/
def Alone (evt : Option UserEvent) (s : State) : Prop :=
  ∀ id work, s.requests id = some work → ∃ phase, work = .userEvent evt phase

theorem Alone.undisturbed {s : State} {act : Act} {evt : Option UserEvent} (h : Alone evt s) :
    Undisturbed s act := by
  intro _ _ _ _ _ _ _ id work subscription hid hread
  obtain ⟨phase, rfl⟩ := h id work hid
  cases hread

theorem Alone.put {s : State} {evt : Option UserEvent} (h : Alone evt s) (phase : Handling) :
    Alone evt (s.put 0 (.userEvent evt phase)) := by
  intro id work hid
  change Function.update s.requests 0 (some (Work.userEvent evt phase)) id = _ at hid
  by_cases hzero : id = 0
  · subst hzero
    rw [Function.update_self] at hid
    exact ⟨phase, (Option.some.inj hid).symm⟩
  · rw [Function.update_of_ne hzero] at hid
    exact h id work hid

def quietStart : State := .start 0 .empty .empty

/-- A message for a user without a subscription, with nothing else in flight. -/
def quietEvent : Option UserEvent := some ⟨"plan_changed", 1⟩

def quietReceived : State := quietStart.put 0 (.userEvent quietEvent .received)

def quietRead : State := quietReceived.put 0 (.userEvent quietEvent (.loaded none))

def quietEnd : State := quietRead.planChanged 0 1 none

theorem planGate_quietEnd :
    Gated quietEnd ∧ ∀ act s', Steps quietEnd act s' →
      (Undisturbed quietEnd act ↔
        ∀ acts' t, Run (Guarded Steps Undisturbed) s' acts' t → Gated t) := by
  have hstart : Alone quietEvent quietStart := by
    intro id work hid
    change none = some work at hid
    cases hid
  have hreceive : Steps quietStart (.request 0 (.userEvent quietEvent .received)) quietReceived :=
    rfl
  have hread : Steps quietReceived (.go 0) quietRead := by
    have hwork : quietReceived.requests 0 = some (.userEvent quietEvent .received) := rfl
    change (quietReceived.requests 0).map (quietReceived.go 0) = _
    rw [hwork]
    rfl
  have hend : Steps quietRead (.go 0) quietEnd := by
    have hwork : quietRead.requests 0 = some (.userEvent quietEvent (.loaded none)) := rfl
    change (quietRead.requests 0).map (quietRead.go 0) = _
    rw [hwork]
    rfl
  exact planGate_iff_undisturbed
    (.cons ⟨hreceive, hstart.undisturbed⟩
      (.cons ⟨hread, (hstart.put _).undisturbed⟩
        (.cons ⟨hend, ((hstart.put _).put _).undisturbed⟩ (.nil _))))

def sampleStep (act : Act) (s : State) : Option State := s.step act

def subscribed (status : Billing.SubscriptionStatus) : SubscriptionTable where
  rows := [{ id := 1, userId := 1, plan := .pro, status }]
  next := 2
  nodup := List.nodup_singleton _
  below := by
    intro r hr
    obtain rfl := List.mem_singleton.mp hr
    exact Nat.one_lt_two
  unique := List.nodup_singleton _

def session : SessionTable :=
  ⟨[⟨1, 1, 1000, none, "hash"⟩], 2, by decide, by decide, by decide⟩

/-- The upgrade reads the active subscription, the subscription expires and the message of this
is handled, and then the upgrade goes on. -/
def lateRegistration : List Act :=
  [.issue "t" ⟨some 1, some 1⟩, .request 0 (.upgrade ⟨"/ws", some "t"⟩ .asked),
    .go 0, .go 0, .go 0, .go 0, .write (subscribed .expired) session,
    .request 1 (.userEvent (some ⟨"plan_changed", 1⟩) .received), .go 1, .go 1, .go 0]

/-- After a `plan_changed` on a free plan no open socket of the user is left, and none comes. -/
def PlanGated : Prop :=
  ∀ (now : Millis) (subscriptions : SubscriptionTable) (sessions : SessionTable)
    (acts : List Act) (s : State), Run Steps (.start now subscriptions sessions) acts s → Gated s

theorem not_planGated : ¬ PlanGated := by
  intro hgated
  have hlate := hgated 0 (subscribed .active) session _ _
    (run_tried sampleStep lateRegistration (.start 0 (subscribed .active) session))
  exact hlate 1 (by decide +kernel) 0 (by decide +kernel)

end Neonfi.Ws
