import Rtace.Api.Requests
import Rtace.Containment.Lifetimes
import Rtace.Decision.Document

/-!
# Who may change a rule

The API runs beside detection, the decisions and containment. Whatever the order of their steps, a rule is
changed by a containment call that plans it, by an override that came with the token, or by its own deadline.
So a transaction whose user or address is under a rule passes only after one of the last two has released
it; and the requests that were refused might as well not have been sent.
-/

namespace Rtace.Api

open Lib Redis Containment

/-! ## Requests -/

/-- The lifetime that an override asks for is the configured one or within the bounds of its endpoint. -/
def LifetimeOk (app : App) : Override → Prop
  | .addQuarantine _ ttl _ => ttl = app.redis.quarantineTtlSeconds ∨ 1 ≤ ttl ∧ ttl ≤ 7 * 24 * 3600
  | .addIpBlock _ ttl _ => ttl = app.redis.ipBlockTtlSeconds ∨ 1 ≤ ttl ∧ ttl ≤ 30 * 24 * 3600
  | .liftQuarantine _ | .clearStepUp _ | .liftIpBlock _ => True

/-- The request carries the token and asks for the override. -/
structure Authorised (app : App) (req : Request) (op : Override) : Prop where
  token : ∃ token, app.token = some token ∧ req.credentials = some token
  asked : req.route.override app = some (some op)
  lifetime : LifetimeOk app op

section Requests

variable {app : App} {req : Request} {op : Override}

theorem ttlOf_eq_some {most default n : ℕ} {ttl : TtlSeconds} (h : ttlOf most default ttl = some n) :
    n = default ∨ 1 ≤ n ∧ n ≤ most := by
  cases ttl with
  | absent => exact .inl (Option.some.inj h).symm
  | notAnInteger => cases h
  | seconds m =>
      simp only [ttlOf] at h
      split at h
      · obtain rfl := Option.some.inj h
        exact .inr (by omega)
      · cases h

theorem lifetimeOk_of_asked (h : req.route.override app = some (some op)) : LifetimeOk app op := by
  cases hroute : req.route with
  | root | metrics | health | getRules =>
      rw [hroute] at h
      cases h
  | addQuarantine userId ttl reason | addIpBlock ip ttl reason =>
      rw [hroute] at h
      obtain ⟨n, hn, rfl⟩ := Option.map_eq_some_iff.mp (Option.some.inj h)
      exact ttlOf_eq_some hn
  | liftQuarantine userId | clearStepUp userId | liftIpBlock ip =>
      rw [hroute] at h
      obtain rfl := Option.some.inj (Option.some.inj h)
      trivial

/-- Only the token opens the overrides. -/
theorem token_of_requireWrite (h : requireWrite app req = none) :
    ∃ token, app.token = some token ∧ req.credentials = some token := by
  cases htoken : app.token with
  | none => simp [requireWrite, htoken] at h
  | some token =>
      cases hcred : req.credentials with
      | none => simp [requireWrite, requireRead, htoken, hcred] at h
      | some credentials =>
          refine ⟨token, rfl, ?_⟩
          simp only [requireWrite, requireRead, htoken, hcred, compareDigest] at h
          split at h
          · cases h
          · rename_i heq
            split at heq
            · rw [beq_iff_eq.mp (Option.some.inj heq)]
            · cases heq
          · cases h

theorem authorised_of_admitted (h : admitted app req = some op) : Authorised app req op := by
  simp only [admitted] at h
  split at h
  case isTrue hwrite =>
    have hasked : req.route.override app = some (some op) := Option.join_eq_some_iff.mp h
    exact ⟨token_of_requireWrite (Option.isNone_iff_eq_none.mp hwrite), hasked, lifetimeOk_of_asked hasked⟩
  case isFalse => cases h

/-- The answer of an override. -/
def Response.isOk : Response → Bool
  | .ok .. => true
  | _ => false

theorem requireRead_isOk (app : App) (req : Request) : ((requireRead app req).getD .served).isOk = false := by
  simp only [requireRead]
  split
  · rfl
  · rfl
  · split <;> rfl

theorem requireWrite_isOk {refusal : Response} (h : requireWrite app req = some refusal) : refusal.isOk = false := by
  simp only [requireWrite] at h
  split at h
  · obtain rfl := Option.some.inj h
    rfl
  · have hread := requireRead_isOk app req
    rwa [h] at hread

/-- A request that is not admitted is not answered like an override, and does nothing. -/
theorem handle_of_not_admitted (now : ℕ) (db : Db) (h : admitted app req = none) :
    ∃ response, handle app now req db = ((response, none), db) ∧ response.isOk = false := by
  simp only [handle]
  split
  case h_1 =>
    refine ⟨_, rfl, ?_⟩
    split
    · exact requireRead_isOk app req
    · rfl
  case h_2 op hop =>
    split
    case h_1 refusal hrefusal => exact ⟨_, rfl, requireWrite_isOk hrefusal⟩
    case h_2 hwrite =>
      cases op with
      | none => exact ⟨_, rfl, rfl⟩
      | some op => simp [admitted, hwrite, hop] at h

theorem handle_of_admitted (now : ℕ) (db : Db) (h : admitted app req = some op) :
    handle app now req db =
      if accepted op then
        ((answer op (effective op db), if effective op db then some op else none), (op.run now db).2)
      else ((.internalServerError, none), db) := by
  simp only [admitted] at h
  split at h
  case isTrue hwrite =>
    have hasked : req.route.override app = some (some op) := Option.join_eq_some_iff.mp h
    simp only [handle, hasked, Option.isNone_iff_eq_none.mp hwrite]
  case isFalse => cases h

end Requests

/-! ## Steps -/

/-- What an override leaves under its key. -/
def entryOf (now : ℕ) : Override → Option Entry
  | .addQuarantine _ ttl reason | .addIpBlock _ ttl reason => some ⟨.str (.text ("api:" ++ reason)), deadline now ttl⟩
  | .liftQuarantine _ | .clearStepUp _ | .liftIpBlock _ => none

theorem run_key (op : Override) (now : ℕ) (db : Db) : (op.run now db).2 op.key = entryOf now op := by
  cases op <;> exact Function.update_self _ _ _

theorem run_eq_of_not_effective {op : Override} (now : ℕ) {db : Db} (h : effective op db = false) :
    (op.run now db).2 = db := by
  funext k
  refine op.run_frame now db ?_
  rcases eq_or_ne k op.key with rfl | hne
  · exact h
  · simp [Override.touched, hne]

theorem watch_touch_false (w : Watch String) : (w.touch fun _ => false) = w := by
  have hany : (w.keys.any fun _ => false) = false := List.any_eq_false.mpr (by simp)
  simp [Watch.touch, hany]

theorem client_touch_false (x : Client) : (x.touch fun _ => false) = x := by
  cases x <;> simp [Client.touch, watch_touch_false]

/-- A write that touches nothing. -/
theorem write_self (s : System) : s.write s.db (fun _ => false) = s := by
  simp [System.write, client_touch_false]

/-- What a decision may write. -/
def decisionKeys : Set String := detectionKeys ∪ keyFamilies [resultKeyPrefix]

theorem decisionKeys_disjoint : Disjoint (ruleKeys ∪ receiptKeys) decisionKeys := by
  refine Set.disjoint_union_left.mpr ⟨Set.disjoint_union_right.mpr ⟨?_, ?_⟩, Set.disjoint_union_right.mpr ⟨?_, ?_⟩⟩
  all_goals exact keyFamilies_disjoint (by decide)

/-- A decision writes neither rules nor receipts. -/
theorem decide_rules {rt : Runtime} (cfg : Engine.Config) (now : ℕ) (call : Engine.Call) (tx : Engine.Transaction)
    (db : Db) : ∀ k ∈ ruleKeys ∪ receiptKeys, (Engine.decide rt cfg now call tx db).2 k = db k := by
  intro k hk
  have hother : k ∉ decisionKeys := Set.disjoint_left.mp decisionKeys_disjoint hk
  refine Engine.decide_untouched rt cfg now call tx db (fun h => hother (.inl (Engine.txKeys_subset rt _ h))) ?_
  rintro rfl
  exact hother (.inr (mem_keyFamilies (by simp) _))

/-- An answered request does nothing and is not answered like an override, or it is an override that the token
admits. -/
theorem answer_cases (app : App) (s : Desk) (req : Request) (timestamp : String) (sent : Bool) :
    ((s.answer app req timestamp sent).1.isOk = false ∧ (s.answer app req timestamp sent).2 = s) ∨
      ∃ op, admitted app req = some op ∧ s.answer app req timestamp sent =
        (answer op true, { s.override op with
          journal := s.journal ++ if sent then [auditOf timestamp req.client op] else [] }) := by
  cases hadmitted : admitted app req with
  | none =>
      obtain ⟨response, hhandle, hok⟩ := handle_of_not_admitted s.system.now s.system.db hadmitted
      refine .inl ?_
      simp [Desk.answer, hhandle, hok, write_self]
  | some op =>
      have hhandle := handle_of_admitted s.system.now s.system.db hadmitted
      by_cases haccepted : accepted op
      · rw [if_pos haccepted] at hhandle
        by_cases heffective : effective op s.system.db
        · refine .inr ⟨op, rfl, ?_⟩
          simp [Desk.answer, hhandle, heffective, Desk.override]
        · rw [Bool.not_eq_true] at heffective
          refine .inl ?_
          have hdb := run_eq_of_not_effective s.system.now heffective
          have hremoval : (answer op false).isOk = false := by
            cases op with
            | addQuarantine | addIpBlock => simp [effective, Override.touched] at heffective
            | liftQuarantine | clearStepUp | liftIpBlock => rfl
          simp [Desk.answer, hhandle, heffective, hdb, hremoval, write_self]
      · rw [if_neg haccepted] at hhandle
        refine .inl ?_
        simp [Desk.answer, hhandle, write_self, Response.isOk]

section Step

variable {app : App} {rt : Runtime} {s t : Desk} {act : Act} {k : String}

/-- Neither a batch nor a decision writes a rule or a receipt. -/
theorem pipeline_rules (h : DeskStep app rt s .pipeline t) :
    ∃ db, t = s.put db ∧ ∀ k ∈ ruleKeys ∪ receiptKeys, db k = s.system.db k := by
  cases h with
  | batch kafka records => exact ⟨_, rfl, handleBatch_rules kafka _ records _⟩
  | decision cfg call tx => exact ⟨_, rfl, decide_rules cfg _ call tx _⟩
  | interleaved db hdb => exact ⟨db, rfl, hdb⟩

theorem DeskStep.sound (hs : s.system.Sound app.redis) (h : DeskStep app rt s act t) : t.system.Sound app.redis := by
  have hoverride (op : Override) : (s.override op).system.Sound app.redis :=
    System.sound_step hs (.override op)
  have hpipeline (h : DeskStep app rt s .pipeline t) : t.system.Sound app.redis := by
    obtain ⟨db, rfl, hdb⟩ := pipeline_rules h
    exact fun c => Client.sound_congr hdb (hs c)
  cases h with
  | answered req timestamp sent =>
      rcases answer_cases app s req timestamp sent with ⟨-, hsame⟩ | ⟨op, -, hop⟩
      · rwa [hsame]
      · rw [hop]
        exact hoverride op
  | failed => exact hs
  | lost req error op => exact hoverride op
  | batch kafka records => exact hpipeline (.batch kafka records)
  | decision cfg call tx => exact hpipeline (.decision cfg call tx)
  | interleaved db hdb => exact hpipeline (.interleaved db hdb)
  | service l sys h => exact System.sound_step hs h

theorem DeskStep.journal (h : DeskStep app rt s act t) : s.journal <+: t.journal := by
  cases h with
  | answered req timestamp sent => exact List.prefix_append _ _
  | failed | lost | batch | decision | interleaved | service => exact List.prefix_rfl

/-- What accounts for the entry that an act leaves under a rule. -/
inductive Accounted (app : App) (journal : List AuditMessage) (k : String) (a : Desk) : Act → Option Entry → Prop
  /-- Its time was up. -/
  | expired {now due : ℕ} {e : Entry} (he : a.system.db k = some e) (hdue : e.expireAt = some due) (hle : due ≤ now) :
      Accounted app journal k a (.service (.tick now)) none
  /-- The call of a detection that plans it. -/
  | contained {d : DetectionEvent} {actions : List ActionKind} {returned : Bool} {ttl : ℕ}
      (h : Writes app.redis a.system.db d k ttl) :
      Accounted app journal k a (.service (.exec d actions returned))
        (some ⟨.str (.text d.detectionId), deadline a.system.now ttl⟩)
  /-- A request with the token, whose record is in the journal. -/
  | overridden {req : Request} {op : Override} {timestamp : String} (h : Authorised app req op) (hkey : op.key = k)
      (hrecord : auditOf timestamp req.client op ∈ journal) :
      Accounted app journal k a (.answered req (answer op true) timestamp true) (entryOf a.system.now op)
  /-- A request with the token, whose record could not be written. -/
  | unrecorded {req : Request} {op : Override} {timestamp : String} (h : Authorised app req op) (hkey : op.key = k) :
      Accounted app journal k a (.answered req (answer op true) timestamp false) (entryOf a.system.now op)
  /-- A request with the token, whose reply from Redis was lost. -/
  | lost {req : Request} {op : Override} (h : Authorised app req op) (hkey : op.key = k) :
      Accounted app journal k a (.failed req .internalServerError true) (entryOf a.system.now op)

theorem Accounted.mono {journal journal' : List AuditMessage} {e : Option Entry} (h : Accounted app journal k s act e)
    (hsub : journal ⊆ journal') : Accounted app journal' k s act e := by
  cases h with
  | expired he hdue hle => exact .expired he hdue hle
  | contained h => exact .contained h
  | overridden h hkey hrecord => exact .overridden h hkey (hsub hrecord)
  | unrecorded h hkey => exact .unrecorded h hkey
  | lost h hkey => exact .lost h hkey

/-- An override changes its own key only. -/
theorem key_of_override {op : Override} (h : (s.override op).system.db k ≠ s.system.db k) :
    op.key = k ∧ (s.override op).system.db k = entryOf s.system.now op := by
  have hkey : op.key = k := by
    by_contra hne
    exact h (op.run_frame s.system.now s.system.db (by simp [Override.touched, Ne.symm hne]))
  exact ⟨hkey, hkey ▸ run_key op s.system.now s.system.db⟩

/-- Time removes what is due. -/
theorem due_of_purge {now : ℕ} {db : Db} (h : purge now db k ≠ db k) :
    purge now db k = none ∧ ∃ e due, db k = some e ∧ e.expireAt = some due ∧ due ≤ now := by
  refine ⟨(purge_cases now db k).resolve_left h, ?_⟩
  cases hk : db k with
  | none => simp [purge, hk] at h
  | some e =>
      cases hdue : e.expireAt with
      | none => simp [purge, hk, hdue] at h
      | some due =>
          refine ⟨e, due, rfl, hdue, ?_⟩
          by_contra hlt
          simp [purge, hk, hdue, Nat.lt_of_not_le hlt] at h

/-- Redis failed an override: the answer is a server error. -/
theorem failure_of_asked {req : Request} {op : Override} {error : String}
    (h : req.route.override app = some (some op)) : req.route.failure error = .internalServerError := by
  cases hroute : req.route with
  | root | metrics | health | getRules =>
      rw [hroute] at h
      cases h
  | addQuarantine | addIpBlock | liftQuarantine | clearStepUp | liftIpBlock => rfl

/-- Containment changes what it plans, and time what is due. -/
theorem accounted_service {l : Label} {sys : System} (hs : s.system.Sound app.redis)
    (h : ContainStep app.redis s.system l sys) (hl : ∀ op, l ≠ .override op) (hk : k ∈ ruleKeys)
    (hne : sys.db k ≠ s.system.db k) : Accounted app s.journal k s (.service l) (sys.db k) := by
  cases l with
  | exec d actions returned =>
      have hcall : sys.db = (applyContainment app.redis s.system.now d s.system.db).2 :=
        congrArg (fun x => x.2.db) (perform_point hs h rfl).symm
      rw [hcall] at hne ⊢
      rcases applyContainment_rule app.redis s.system.now d s.system.db hk with ⟨-, hkept⟩ | ⟨ttl, hwrites, hentry⟩
      · exact absurd hkept hne
      · rw [hentry]
        exact .contained hwrites
  | tick now =>
      have hpurge : sys.db = purge now s.system.db := congrArg (fun x => x.2.db) (perform_point hs h rfl).symm
      rw [hpurge] at hne ⊢
      obtain ⟨hgone, e, due, he, hdue, hle⟩ := due_of_purge hne
      rw [hgone]
      exact .expired he hdue hle
  | override op => exact absurd rfl (hl op)
  | crash =>
      cases h
      exact absurd rfl hne
  | hit | ignored | start | internal => exact absurd (congrFun (db_eq_of_reads h nofun nofun) k) hne

/-- Every change of a rule in a step is accounted for. -/
theorem accounted_step (hs : s.system.Sound app.redis) (h : DeskStep app rt s act t) (hk : k ∈ ruleKeys)
    (hne : t.system.db k ≠ s.system.db k) : Accounted app t.journal k s act (t.system.db k) := by
  have hpipeline (h : DeskStep app rt s .pipeline t) : t.system.db k = s.system.db k := by
    obtain ⟨db, rfl, hdb⟩ := pipeline_rules h
    exact hdb k (.inl hk)
  cases h with
  | answered req timestamp sent =>
      rcases answer_cases app s req timestamp sent with ⟨-, hsame⟩ | ⟨op, hadmitted, hop⟩
      · rw [hsame] at hne
        exact absurd rfl hne
      · rw [hop] at hne ⊢
        obtain ⟨hkey, hentry⟩ := key_of_override (s := s) hne
        rw [show ({ s.override op with journal := _ } : Desk).system.db k = entryOf s.system.now op from hentry]
        cases sent with
        | true => exact .overridden (authorised_of_admitted hadmitted) hkey (by simp)
        | false => exact .unrecorded (authorised_of_admitted hadmitted) hkey
  | failed => exact absurd rfl hne
  | lost req error op hop haccepted =>
      obtain ⟨hkey, hentry⟩ := key_of_override hne
      have hauthorised := authorised_of_admitted hop
      rw [hentry, failure_of_asked hauthorised.asked]
      exact .lost hauthorised hkey
  | batch kafka records => exact absurd (hpipeline (.batch kafka records)) hne
  | decision cfg call tx => exact absurd (hpipeline (.decision cfg call tx)) hne
  | interleaved db hdb => exact absurd (hpipeline (.interleaved db hdb)) hne
  | service l sys h hl => exact accounted_service hs h hl hk hne

end Step

/-! ## Runs -/

namespace Sample

def app : App := ⟨some "s3cret", {}⟩

/-- One user is quarantined for an hour. -/
def desk : Desk where
  system := ⟨0, Function.update (fun _ => none) (quarantineKey "u1") (some ⟨.str (.text "det-1"), some 3600000⟩), fun _ => .idle⟩
  journal := []

def lift (credentials : String) : Request := ⟨.liftQuarantine "u1", some credentials, none⟩

/-- An intruder tries to lift the quarantine, then the operator does. -/
def acts : List Act :=
  [.answered (lift "guess") (.httpException 401 "Missing or invalid bearer token") "t0" true,
    .answered (lift "s3cret") (answer (.liftQuarantine "u1") true) "t1" true]

def lifted : Desk where
  system := ⟨0, fun _ => none, fun _ => .idle⟩
  journal := [auditOf "t1" none (.liftQuarantine "u1")]

theorem answer_guess : desk.answer app (lift "guess") "t0" true =
    (.httpException 401 "Missing or invalid bearer token", desk) := by
  have hhandle (db : Db) : handle app 0 (lift "guess") db =
      ((.httpException 401 "Missing or invalid bearer token", none), db) := rfl
  simp only [Desk.answer, show desk.system.now = 0 from rfl, hhandle]
  simp [write_self]

theorem answer_lift : desk.answer app (lift "s3cret") "t1" true = (answer (.liftQuarantine "u1") true, lifted) := by
  have hhandle : handle app 0 (lift "s3cret") desk.system.db =
      ((answer (.liftQuarantine "u1") true, some (.liftQuarantine "u1")), (del (quarantineKey "u1") desk.system.db).2) := rfl
  have hdb : (del (quarantineKey "u1") desk.system.db).2 = fun _ => none := by
    simp [del, atKey, desk, Function.update_idem]
  simp only [Desk.answer, show desk.system.now = 0 from rfl, hhandle, hdb]
  rfl

theorem lifted_run (rt : Runtime) : Run (DeskStep app rt) desk acts lifted := by
  have hguess := @DeskStep.answered app rt desk (lift "guess") "t0" true
  have hlift := @DeskStep.answered app rt desk (lift "s3cret") "t1" true
  rw [answer_guess] at hguess
  rw [answer_lift] at hlift
  exact .cons hguess (.single hlift)

end Sample

section Run

variable {app : App} {rt : Runtime} {s t : Desk} {ls : List Act} {k : String}

theorem journal_subset (h : Run (DeskStep app rt) s ls t) : s.journal ⊆ t.journal :=
  (h.invariant (I := fun x => s.journal <+: x.journal) List.prefix_rfl fun _ _ _ hI hstep =>
    hI.trans hstep.journal).subset

/-- In every run of the services, whatever the order of their steps, a rule that has changed was given its last
value by a containment call that plans it, by its deadline, or by an override that came with the token; and the
override is in the journal unless its record could not be written or the reply of Redis was lost. -/
theorem rule_change_accounted (hs : s.system.Quiet) (h : Run (DeskStep app rt) s ls t) (hk : k ∈ ruleKeys)
    (hne : t.system.db k ≠ s.system.db k) :
    ∃ before act after a b, ls = before ++ act :: after ∧ Run (DeskStep app rt) s before a ∧ DeskStep app rt a act b ∧
      Run (DeskStep app rt) b after t ∧ b.system.db k = t.system.db k ∧
        Accounted app t.journal k a act (t.system.db k) := by
  obtain ⟨before, act, after, a, b, hls, hbefore, hstep, hafter, hchange, hlast⟩ :=
    h.last_change (fun x => x.system.db k) hne
  have hsound : a.system.Sound app.redis :=
    hbefore.invariant (I := fun x => x.system.Sound app.redis) (hs.sound app.redis) fun _ _ _ hI => DeskStep.sound hI
  refine ⟨before, act, after, a, b, hls, hbefore, hstep, hafter, hlast, ?_⟩
  rw [← hlast]
  exact (accounted_step hsound hstep hk hchange.symm).mono (journal_subset hafter)

/-- The removal of the quarantine is accounted for. -/
theorem lift_accounted :
    ∃ before act after a b, Sample.acts = before ++ act :: after ∧
      Run (DeskStep Sample.app Rtace.Sample.runtime) Sample.desk before a ∧
      DeskStep Sample.app Rtace.Sample.runtime a act b ∧
      Run (DeskStep Sample.app Rtace.Sample.runtime) b after Sample.lifted ∧
      b.system.db (quarantineKey "u1") = Sample.lifted.system.db (quarantineKey "u1") ∧
        Accounted Sample.app Sample.lifted.journal (quarantineKey "u1") a act
          (Sample.lifted.system.db (quarantineKey "u1")) :=
  rule_change_accounted (fun _ => rfl) (Sample.lifted_run _) (quarantineKey_mem "u1")
    (by simp [Sample.desk, Sample.lifted])

/-- The rules of a transaction, each with the verdict it stands for. -/
def guards (tx : Engine.Transaction) : List (String × Engine.Verdict) :=
  [(quarantineKey tx.userId, .deny), (stepUpKey tx.userId, .challenge)] ++
    if tx.ipAddress = "" then [] else [(ipBlockKey tx.ipAddress, .deny)]

theorem guards_subset {tx : Engine.Transaction} {v : Engine.Verdict} (h : (k, v) ∈ guards tx) : k ∈ ruleKeys := by
  simp only [guards, List.mem_append, List.mem_cons, List.not_mem_nil, or_false] at h
  rcases h with (h | h) | h
  · rw [(Prod.mk.inj h).1]
    exact quarantineKey_mem _
  · rw [(Prod.mk.inj h).1]
    exact stepUpKey_mem _
  · split at h
    · cases h
    · rw [(Prod.mk.inj (List.mem_singleton.mp h)).1]
      exact ipBlockKey_mem _

/-- A live rule of a transaction refuses it. -/
theorem refusal_of_guard {tx : Engine.Transaction} {v : Engine.Verdict} {db : Db} (hk : (k, v) ∈ guards tx)
    (hlive : Live db k) :
    ∃ reason v', Engine.refusal tx (Engine.activeRules db tx) = some (reason, v') ∧ (v' = .deny ∨ v' = v) := by
  simp only [Engine.refusal]
  by_cases hquarantined : (Engine.activeRules db tx).quarantined
  · exact ⟨_, _, if_pos hquarantined, .inl rfl⟩
  rw [if_neg hquarantined]
  by_cases hblocked : (Engine.activeRules db tx).ipBlocked
  · exact ⟨_, _, if_pos hblocked, .inl rfl⟩
  rw [if_neg hblocked]
  -- What is left is the step-up.
  simp only [guards, List.mem_append, List.mem_cons, List.not_mem_nil, or_false] at hk
  rcases hk with (hk | hk) | hk
  · obtain ⟨rfl, -⟩ := Prod.mk.inj hk
    exact absurd hlive hquarantined
  · obtain ⟨rfl, rfl⟩ := Prod.mk.inj hk
    exact ⟨_, _, if_pos hlive, .inr rfl⟩
  · split at hk
    · cases hk
    · rename_i hip
      obtain ⟨rfl, -⟩ := Prod.mk.inj (List.mem_singleton.mp hk)
      exact absurd (decide_eq_true ⟨hip, hlive⟩) hblocked

/-- Under a live rule a transaction is denied, or gets the verdict of the rule, and nothing is written. -/
theorem decide_of_guard {tx : Engine.Transaction} {v : Engine.Verdict} {db : Db} (hids : ¬ (tx.eventId = "" ∨ tx.userId = ""))
    (hk : (k, v) ∈ guards tx) (hlive : Live db k) (cfg : Engine.Config) (now : ℕ) (call : Engine.Call) :
    ∃ d, Engine.decide rt cfg now call tx db = (.ok d, db) ∧ (d.verdict = .deny ∨ d.verdict = v) := by
  have hstamped : (k, v) ∈ guards (tx.stamped call) := by
    have hip : (tx.stamped call).ipAddress = tx.ipAddress := by
      unfold Engine.Transaction.stamped
      split <;> rfl
    rw [guards, Engine.stamped_userId, hip]
    exact hk
  obtain ⟨reason, v', hrefusal, hv⟩ := refusal_of_guard hstamped hlive
  exact ⟨_, Engine.decide_refused hids hrefusal, hv⟩

/-- A transaction under a rule is denied or challenged as the rule says, until a step of the run has released it:
its deadline, or a removal that came with the token. -/
theorem passed_only_after_release {tx : Engine.Transaction} {v : Engine.Verdict} (hs : s.system.Quiet)
    (h : Run (DeskStep app rt) s ls t) (hids : ¬ (tx.eventId = "" ∨ tx.userId = "")) (hk : (k, v) ∈ guards tx)
    (hlive : Live s.system.db k) (cfg : Engine.Config) (call : Engine.Call) :
    (∃ d, Engine.decide rt cfg t.system.now call tx t.system.db = (.ok d, t.system.db) ∧
        (d.verdict = .deny ∨ d.verdict = v)) ∨
      ∃ before act after a b, ls = before ++ act :: after ∧ Run (DeskStep app rt) s before a ∧
        DeskStep app rt a act b ∧ Run (DeskStep app rt) b after t ∧ Live a.system.db k ∧
          Accounted app t.journal k a act none := by
  by_cases hend : Live t.system.db k
  · exact .inl (decide_of_guard hids hk hend cfg t.system.now call)
  · refine .inr ?_
    obtain ⟨before, act, after, a, b, hls, hbefore, hstep, hafter, hchange, hlast⟩ :=
      h.last_change (fun x => (x.system.db k).isSome) (by simp_all [Live])
    have hsound : a.system.Sound app.redis :=
      hbefore.invariant (I := fun x => x.system.Sound app.redis) (hs.sound app.redis) fun _ _ _ hI => DeskStep.sound hI
    have hgone : b.system.db k = none := by
      rw [← Option.not_isSome_iff_eq_none, hlast]
      exact hend
    have ha : Live a.system.db k := by
      by_contra hdead
      exact hchange (by simp_all [Live])
    have haccounted := accounted_step hsound hstep (guards_subset hk) (by
      rw [hgone]
      intro hnone
      rw [Live, ← hnone] at ha
      cases ha)
    rw [hgone] at haccounted
    exact ⟨before, act, after, a, b, hls, hbefore, hstep, hafter, ha, haccounted.mono (journal_subset hafter)⟩

/-- The quarantined user, after the intruder and the operator. -/
theorem passed_only_after_lift :
    (∃ d, Engine.decide Rtace.Sample.runtime {} Sample.lifted.system.now Rtace.Sample.call
          (Rtace.Sample.transaction "e1") Sample.lifted.system.db = (.ok d, Sample.lifted.system.db) ∧
        (d.verdict = .deny ∨ d.verdict = .deny)) ∨
      ∃ before act after a b, Sample.acts = before ++ act :: after ∧
        Run (DeskStep Sample.app Rtace.Sample.runtime) Sample.desk before a ∧
        DeskStep Sample.app Rtace.Sample.runtime a act b ∧
        Run (DeskStep Sample.app Rtace.Sample.runtime) b after Sample.lifted ∧
        Live a.system.db (quarantineKey "u1") ∧
          Accounted Sample.app Sample.lifted.journal (quarantineKey "u1") a act none :=
  passed_only_after_release (fun _ => rfl) (Sample.lifted_run _) (by decide) (by decide) (by decide) {} _

/-! ### Refused requests -/

/-- The answer leaves it open, or says, that something was done. -/
def Response.mayHaveActed : Response → Bool
  | .ok .. | .internalServerError => true
  | .served | .httpException .. | .unprocessable => false

/-- By the request and its answer, the act may have changed something. -/
def Act.matters (app : App) : Act → Bool
  | .answered req response .. | .failed req response _ => (admitted app req).isSome && response.mayHaveActed
  | .pipeline | .service _ => true

/-- The request of an act. -/
def Act.request : Act → Option Request
  | .answered req .. | .failed req .. => some req
  | .pipeline | .service _ => none

theorem eq_of_not_matters {act : Act} (h : DeskStep app rt s act t) (hact : act.matters app = false) : t = s := by
  cases h with
  | answered req timestamp sent =>
      rcases answer_cases app s req timestamp sent with ⟨-, hsame⟩ | ⟨op, hadmitted, hop⟩
      · exact hsame
      · rw [hop] at hact
        cases op <;> simp [Act.matters, hadmitted, answer, Response.mayHaveActed] at hact
  | failed => rfl
  | lost req error op hop =>
      rw [Act.matters, hop, failure_of_asked (authorised_of_admitted hop).asked] at hact
      cases hact
  | batch | decision | interleaved | service => cases hact

/-- The requests that do not carry the token, ask for no override or are answered with anything but a success or a
server error can be left out of any run: the same steps of the others lead to the same rules, the same keyspace
and the same journal. -/
theorem refused_requests_erased (h : Run (DeskStep app rt) s ls t) :
    Run (DeskStep app rt) s (ls.filter (Act.matters app)) t ∧
      ∀ act ∈ ls.filter (Act.matters app), ∀ req ∈ act.request,
        ∃ token, app.token = some token ∧ req.credentials = some token := by
  refine ⟨h.erase fun _ _ _ hstep hact => eq_of_not_matters hstep hact, ?_⟩
  intro act hact req hreq
  have hmatters := (List.mem_filter.mp hact).2
  have hadmitted : (admitted app req).isSome := by
    cases act with
    | answered | failed =>
        obtain rfl := Option.some.inj hreq
        exact (Bool.and_eq_true_iff.mp hmatters).1
    | pipeline | service => cases hreq
  obtain ⟨op, hop⟩ := Option.isSome_iff_exists.mp hadmitted
  exact (authorised_of_admitted hop).token

/-- Without the intruder the operator does the same. -/
theorem guess_erased :
    Run (DeskStep Sample.app Rtace.Sample.runtime) Sample.desk (Sample.acts.filter (Act.matters Sample.app)) Sample.lifted ∧
      ∀ act ∈ Sample.acts.filter (Act.matters Sample.app), ∀ req ∈ act.request,
        ∃ token, Sample.app.token = some token ∧ req.credentials = some token :=
  refused_requests_erased (Sample.lifted_run _)

end Run

end Rtace.Api
