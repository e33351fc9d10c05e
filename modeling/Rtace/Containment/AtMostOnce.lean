import Rtace.Containment.Linear

/-!
# Containment happens at most once per detection id

The receipt is written with the rules, and every call that finds it stops there. While the receipt of an
id lives, whatever was executed or returned for the id is what the receipt says (`Told`), for every
schedule of calls, crashes, lost replies and overrides.
-/

namespace Rtace.Containment

open Lib Redis

/-- The receipt of a detection id. -/
def receipt (db : Db) (i : String) : Option Payload := payload (db (receiptKey i))

namespace Label

/-- The detection of a step of a call. -/
def detection : Label → Option DetectionEvent
  | hit d _ | ignored d | exec d _ _ | start d | internal d => some d
  | override _ | tick _ | crash => none

/-- What a completed call returns. -/
def returned : Label → Option (DetectionEvent × List ActionKind)
  | hit d actions => some (d, actions)
  | ignored d => some (d, [])
  | exec d actions true => some (d, actions)
  | _ => none

/-- The rule writes of id `i` are executed. -/
def writes (i : String) : Label → Bool
  | exec d _ _ => d.detectionId = i
  | _ => false

/-- The actions of id `i` that a step writes into the receipt or reads from it. -/
def reports (i : String) : Label → Option (List ActionKind)
  | hit d actions | exec d actions _ => if d.detectionId = i then some actions else none
  | _ => none

end Label

/-- A step in which the receipt of `i` does not expire. -/
def LiveStep (cfg : RedisConfig) (i : String) (s : System) (l : Label) (t : System) : Prop :=
  ContainStep cfg s l t ∧ (l.detection = none → receipt s.db i ≠ none → receipt t.db i ≠ none)

/-- The entry is the mark of an API override. -/
def ByApi (e : Entry) : Prop := ∃ reason, e.val = .str (.text ("api:" ++ reason))

section Step

variable {cfg : RedisConfig} {s t : System} {l : Label} {i : String}

/-- A transaction executes the plan of its detection, on a keyspace without its receipt. -/
theorem exec_spec {d : DetectionEvent} {actions : List ActionKind} {returned : Bool} (hs : s.Sound cfg)
    (h : ContainStep cfg s (.exec d actions returned) t) :
    receipt s.db d.detectionId = none ∧ actions = (plan cfg d (s.db (stepUpKey d.userId)).isSome).1 ∧
      Known d.detectionType ∧
      t.db = (writeAll cfg s.now d (plan cfg d (s.db (stepUpKey d.userId)).isSome) s.db).2 := by
  cases h with
  | exec c _ w p _ hc hw =>
      have hsound : (Client.planned d w p).Sound cfg s.db := hc ▸ hs c
      obtain ⟨-, -, hne, hclean⟩ := hsound
      obtain ⟨hp, rfl⟩ := hclean hw
      exact ⟨hp, rfl, (plan_ne_nil_iff cfg d _).mp hne, rfl⟩

/-- A transaction leaves every key alone that is neither its receipt nor in its plan. -/
theorem exec_frame {d : DetectionEvent} {actions : List ActionKind} {returned : Bool} (hs : s.Sound cfg)
    (h : ContainStep cfg s (.exec d actions returned) t) {k : String} (hkey : k ≠ receiptKey d.detectionId)
    (hplan : k ∉ (plan cfg d (s.db (stepUpKey d.userId)).isSome).2.map Prod.fst) : t.db k = s.db k := by
  obtain ⟨-, -, -, hdb⟩ := exec_spec hs h
  rw [hdb, writeAll_frame]
  simp [writtenKeys, hkey, hplan]

theorem hit_spec {d : DetectionEvent} {actions : List ActionKind}
    (h : ContainStep cfg s (.hit d actions) t) :
    ∃ p, receipt s.db d.detectionId = some p ∧ decodeActions p = some actions := by
  cases h with
  | hit c _ w p _ hc hp ha => exact ⟨p, hp, ha⟩

theorem ignored_spec {d : DetectionEvent} (h : ContainStep cfg s (.ignored d) t) :
    receipt s.db d.detectionId = none ∧ ¬ Known d.detectionType := by
  cases h with
  | ignored c _ w hc hp hd => exact ⟨hp, fun hk => (plan_ne_nil_iff cfg d false).mpr hk hd⟩

/-- Only a transaction, an override or time changes the keyspace. -/
theorem db_eq_of_reads (h : ContainStep cfg s l t) (hexec : ∀ d a r, l ≠ .exec d a r)
    (hcall : l.detection ≠ none) : t.db = s.db := by
  cases h with
  | start | watch | hit | unreadable | ignored | miss | plan | conflict => rfl
  | exec c d w p returned hc hw => exact absurd rfl (hexec d p.1 returned)
  | crash | override | tick => simp [Label.detection] at hcall

/-- What a step that is no transaction does to a key: nothing, or the key is cleared or expires, or the API
sets it. The API sets quarantines and IP blocks only. -/
theorem key_step (h : ContainStep cfg s l t) (hexec : ∀ d a r, l ≠ .exec d a r) (k : String) :
    t.db k = s.db k ∨ l.detection = none ∧ (t.db k = none ∨
      (∃ e, t.db k = some e ∧ ByApi e) ∧ k ∈ keyFamilies [quarantineKeyPrefix, ipBlockKeyPrefix]) := by
  cases h with
  | start | watch | hit | unreadable | ignored | miss | plan | conflict | crash => exact .inl rfl
  | exec c d w p returned hc hw => exact absurd rfl (hexec d p.1 returned)
  | override op =>
      by_cases htouched : op.touched s.db k = false
      · exact .inl (op.run_frame s.now s.db htouched)
      · obtain rfl : k = op.key := by
          simp only [Override.touched, Bool.not_eq_false, Bool.and_eq_true, beq_iff_eq] at htouched
          exact htouched.1
        refine .inr ⟨rfl, ?_⟩
        cases op with
        | addQuarantine u ttl reason | addIpBlock u ttl reason =>
            refine .inr ⟨⟨_, Function.update_self _ _ _, reason, rfl⟩, mem_keyFamilies (by simp) _⟩
        | liftQuarantine | clearStepUp | liftIpBlock => exact .inl (Function.update_self _ _ _)
  | tick now h =>
      rcases purge_cases now s.db k with heq | hgone
      · exact .inl heq
      · exact .inr ⟨rfl, .inl hgone⟩

/-- The receipt of `i` is written by the transaction of `i`, which finds none; nothing else changes it,
except that it may expire. -/
theorem receipt_step (hs : s.Sound cfg) (h : ContainStep cfg s l t) :
    (∃ d a r, l = .exec d a r ∧ d.detectionId = i ∧ receipt s.db i = none ∧
        receipt t.db i = some (encodeActions a)) ∨
      l.writes i = false ∧
        (receipt t.db i = receipt s.db i ∨ l.detection = none ∧ receipt t.db i = none) := by
  cases l with
  | exec d a r =>
      obtain ⟨hnone, hact, -, hdb⟩ := exec_spec hs h
      by_cases hi : d.detectionId = i
      · subst hi
        refine .inl ⟨d, a, r, rfl, rfl, hnone, ?_⟩
        rw [receipt, hdb, writeAll_receipt _ _ _ _ _ (receiptKey_notMem_plan cfg d _ _), ← hact]
      · refine .inr ⟨by simp [Label.writes, hi], .inl ?_⟩
        have hkey : receiptKey i ≠ receiptKey d.detectionId := by
          intro heq
          exact hi (by simpa [receiptKey, String.ext_iff] using heq.symm)
        rw [receipt, exec_frame hs h hkey (receiptKey_notMem_plan cfg d _ i), receipt]
  | _ =>
      refine .inr ⟨rfl, ?_⟩
      rcases key_step h (by simp) (receiptKey i) with heq | ⟨hl, hgone | ⟨-, hmem⟩⟩
      · exact .inl (by rw [receipt, heq, receipt])
      · exact .inr ⟨hl, by rw [receipt, hgone]; rfl⟩
      · have hreceipt : receiptKey i ∈ keyFamilies [receiptKeyPrefix] := mem_keyFamilies (by simp) _
        exact absurd hmem (Set.disjoint_left.mp (keyFamilies_disjoint (by decide)) hreceipt)

end Step

/-! ## The history of an id -/

/-- How the history of id `i` and its receipt fit together while the receipt lives. -/
structure Told (cfg : RedisConfig) (i : String) (ls : List Label) (s : System) : Prop where
  sound : s.Sound cfg
  /-- Whatever was written or read for `i` is what the receipt says. -/
  agree : ∀ a ∈ ls.filterMap (Label.reports i), ∃ p, receipt s.db i = some p ∧ decodeActions p = some a
  once : ls.countP (Label.writes i) ≤ 1
  /-- A call for `i` that found no receipt precedes the transaction that wrote it. -/
  late : ∀ d, .ignored d ∈ ls → d.detectionId = i → receipt s.db i ≠ none →
    0 < ls.countP (Label.writes i)

theorem reports_of_writes {i : String} {l : Label} (h : l.writes i = true) : l.reports i ≠ none := by
  cases l with
  | exec d a r =>
      have hi : d.detectionId = i := of_decide_eq_true h
      simp [Label.reports, hi]
  | _ => simp [Label.writes] at h

theorem told_quiet {cfg : RedisConfig} {i : String} {s : System} (hs : s.Quiet) : Told cfg i [] s where
  sound := hs.sound cfg
  agree := by simp
  once := by simp
  late := by simp

/-- A step that keeps the receipt keeps the history and the receipt in agreement. -/
theorem Told.step {cfg : RedisConfig} {i : String} {ls : List Label} {s t : System} {l : Label}
    (hI : Told cfg i ls s) (h : LiveStep cfg i s l t) : Told cfg i (ls ++ [l]) t := by
  obtain ⟨hstep, hlive⟩ := h
  have hsound : t.Sound cfg := System.sound_step hI.sound hstep
  rcases receipt_step (i := i) hI.sound hstep with ⟨d, a, r, rfl, hi, hnone, hnew⟩ | ⟨hw, hrest⟩
  · -- the transaction of `i`: nothing was reported before, since there was no receipt
    have hempty : ls.filterMap (Label.reports i) = [] := by
      refine List.eq_nil_iff_forall_not_mem.mpr fun a' ha' => ?_
      obtain ⟨p, hp, -⟩ := hI.agree a' ha'
      rw [hnone] at hp
      cases hp
    have hzero : ls.countP (Label.writes i) = 0 := by
      refine List.countP_eq_zero.mpr fun l' hl' hwl => ?_
      exact reports_of_writes hwl (List.filterMap_eq_nil_iff.mp hempty l' hl')
    have hself : Label.writes i (.exec d a r) = true := by simp [Label.writes, hi]
    refine ⟨hsound, ?_, ?_, ?_⟩
    · intro a' ha'
      rw [List.filterMap_append, hempty] at ha'
      obtain rfl : a' = a := by simpa [Label.reports, hi] using ha'
      exact ⟨_, hnew, decodeActions_encodeActions a'⟩
    · simp [List.countP_append, hzero, hself]
    · intro d' _ _ _
      simp [List.countP_append, hself]
  · -- any other step leaves the receipt as it is, because the receipt lives
    have hkept : ∀ p, receipt s.db i = some p → receipt t.db i = some p := by
      intro p hp
      rcases hrest with heq | ⟨hl, hgone⟩
      · rw [heq, hp]
      · exact absurd hgone (hlive hl (by rw [hp]; simp))
    have hnone : receipt s.db i = none → receipt t.db i = none := by
      intro hp
      rcases hrest with heq | ⟨-, hgone⟩
      · rw [heq, hp]
      · exact hgone
    refine ⟨hsound, ?_, ?_, ?_⟩
    · intro a' ha'
      rw [List.filterMap_append, List.mem_append] at ha'
      rcases ha' with ha' | ha'
      · obtain ⟨p, hp, hpa⟩ := hI.agree a' ha'
        exact ⟨p, hkept p hp, hpa⟩
      · cases l with
        | hit d a =>
            obtain ⟨p, hp, hpa⟩ := hit_spec hstep
            by_cases hi : d.detectionId = i
            · obtain rfl : a' = a := by simpa [Label.reports, hi] using ha'
              exact ⟨p, hkept p (hi ▸ hp), hpa⟩
            · simp [Label.reports, hi] at ha'
        | exec d a r =>
            have hi : d.detectionId ≠ i := of_decide_eq_false hw
            simp [Label.reports, hi] at ha'
        | _ => simp [Label.reports] at ha'
    · simpa [List.countP_append, hw] using hI.once
    · intro d hd hi hpresent
      have hbefore : receipt s.db i ≠ none := fun hnone' => hpresent (hnone hnone')
      rcases List.mem_append.mp hd with hd | hd
      · simpa [List.countP_append, hw] using hI.late d hd hi hbefore
      · obtain rfl : l = .ignored d := (List.mem_singleton.mp hd).symm
        exact absurd (hi ▸ (ignored_spec hstep).1) hbefore

theorem told_run {cfg : RedisConfig} {i : String} {s t : System} {ls : List Label} (hs : s.Quiet)
    (h : Run (LiveStep cfg i) s ls t) : Told cfg i ls t :=
  h.history (told_quiet hs) fun _ _ _ _ => Told.step

/-- Transactions are of known types, and calls that are ignored of unknown ones. -/
theorem known_run {cfg : RedisConfig} {s t : System} {ls : List Label} (hs : s.Quiet)
    (h : Run (ContainStep cfg) s ls t) :
    (∀ d a r, .exec d a r ∈ ls → Known d.detectionType) ∧ ∀ d, .ignored d ∈ ls → ¬ Known d.detectionType := by
  have hboth := h.invariant_labels (I := System.Sound cfg)
    (P := fun l => (∀ d a r, l = .exec d a r → Known d.detectionType) ∧
      ∀ d, l = .ignored d → ¬ Known d.detectionType) (hs.sound cfg) fun a l b hI hl => by
        refine ⟨System.sound_step hI hl, ?_, ?_⟩
        · rintro d actions r rfl
          exact (exec_spec hI hl).2.2.1
        · rintro d rfl
          exact (ignored_spec hl).2
  exact ⟨fun d a r hl => (hboth.2 _ hl).1 d a r rfl, fun d hl => (hboth.2 _ hl).2 d rfl⟩

/-- A completed call reports the receipt, or was ignored. -/
theorem returned_cases {l : Label} {d : DetectionEvent} {a : List ActionKind}
    (h : l.returned = some (d, a)) : l.reports d.detectionId = some a ∨ l = .ignored d ∧ a = [] := by
  cases l with
  | hit d' a' =>
      obtain ⟨rfl, rfl⟩ := by simpa only [Label.returned, Option.some.injEq, Prod.mk.injEq] using h
      exact .inl (if_pos rfl)
  | ignored d' =>
      obtain ⟨rfl, rfl⟩ := by simpa only [Label.returned, Option.some.injEq, Prod.mk.injEq] using h
      exact .inr ⟨rfl, rfl⟩
  | exec d' a' r =>
      cases r with
      | false => simp [Label.returned] at h
      | true =>
          obtain ⟨rfl, rfl⟩ := by simpa only [Label.returned, Option.some.injEq, Prod.mk.injEq] using h
          exact .inl (if_pos rfl)
  | _ => simp [Label.returned] at h

/-- The calls of a history that are for `i` are redeliveries of one detection, as far as the type goes. -/
def OneType (i : String) (ls : List Label) : Prop :=
  ∀ l ∈ ls, ∀ l' ∈ ls, ∀ d d', l.detection = some d → l'.detection = some d' →
    d.detectionId = i → d'.detectionId = i → d.detectionType = d'.detectionType

/-- An ignored call and a reported receipt do not occur for the same id. -/
theorem not_ignored_of_reports {cfg : RedisConfig} {i : String} {s t : System} {ls : List Label}
    (hs : s.Quiet) (h : Run (LiveStep cfg i) s ls t) (htype : OneType i ls) {d : DetectionEvent}
    {l : Label} {a : List ActionKind} (hd : .ignored d ∈ ls) (hi : d.detectionId = i) (hl : l ∈ ls) :
    l.reports i ≠ some a := by
  intro hr
  have htold := told_run hs h
  obtain ⟨hknown, hunknown⟩ := known_run hs (h.mono fun _ _ _ hstep => hstep.1)
  obtain ⟨p, hp, -⟩ := htold.agree a (List.mem_filterMap.mpr ⟨l, hl, hr⟩)
  have hpos : 0 < ls.countP (Label.writes i) := htold.late d hd hi (by rw [hp]; simp)
  obtain ⟨l', hl', hw⟩ := List.countP_pos_iff.mp hpos
  cases l' with
  | exec d' a' r =>
      have hsame : d.detectionType = d'.detectionType :=
        htype _ hd _ hl' d d' rfl rfl hi (of_decide_eq_true hw)
      exact hunknown d hd (hsame ▸ hknown d' a' r hl')
  | _ => simp [Label.writes] at hw

/-- While the receipt of `i` lives: its rule writes are executed at most once, every completed call for
`i` returns the same actions, and once the receipt is there, as it is once they have been executed or
read back, no step of a call for `i` changes any key or deadline. -/
theorem containment_once {cfg : RedisConfig} {i : String} {s t : System} {ls : List Label} (hs : s.Quiet)
    (h : Run (LiveStep cfg i) s ls t) :
    ls.countP (Label.writes i) ≤ 1 ∧
      (OneType i ls → ∀ l ∈ ls, ∀ l' ∈ ls, ∀ d d' a a', l.returned = some (d, a) →
        l'.returned = some (d', a') → d.detectionId = i → d'.detectionId = i →
        a = a' ∧ (auditRecord d a).actions = (auditRecord d' a').actions ∧
          (auditRecord d a).action = (auditRecord d' a').action) ∧
      (ls.filterMap (Label.reports i) ≠ [] ∨ receipt t.db i ≠ none → ∀ l u d, ContainStep cfg t l u → l.detection = some d →
        d.detectionId = i → u.db = t.db) := by
  have htold := told_run hs h
  refine ⟨htold.once, ?_, ?_⟩
  · intro htype l hl l' hl' d d' a a' hret hret' hi hi'
    have heq : a = a' := by
      rcases returned_cases hret with hr | ⟨rfl, rfl⟩ <;> rcases returned_cases hret' with hr' | ⟨rfl, rfl⟩
      · rw [hi] at hr
        rw [hi'] at hr'
        obtain ⟨p, hp, hpa⟩ := htold.agree a (List.mem_filterMap.mpr ⟨l, hl, hr⟩)
        obtain ⟨p', hp', hpa'⟩ := htold.agree a' (List.mem_filterMap.mpr ⟨l', hl', hr'⟩)
        obtain rfl : p = p' := Option.some.inj (hp.symm.trans hp')
        exact Option.some.inj (hpa.symm.trans hpa')
      · exact absurd (hi ▸ hr) (not_ignored_of_reports hs h htype hl' hi' hl)
      · exact absurd (hi' ▸ hr') (not_ignored_of_reports hs h htype hl hi hl')
      · rfl
    subst heq
    exact ⟨rfl, rfl, rfl⟩
  · intro hrep l u d hstep hdet hi
    refine db_eq_of_reads hstep ?_ (by rw [hdet]; simp)
    rintro d' a r rfl
    obtain rfl : d' = d := by simpa [Label.detection] using hdet
    have hnone : receipt t.db i = none := hi ▸ (exec_spec htold.sound hstep).1
    rcases hrep with hrep | hpresent
    · obtain ⟨a', ha'⟩ := List.exists_mem_of_ne_nil _ hrep
      obtain ⟨p, hp, -⟩ := htold.agree a' ha'
      rw [hnone] at hp
      cases hp
    · exact hpresent hnone

namespace Sample

/-- A burst detection. -/
def burst : DetectionEvent where
  detectionId := "d1"
  detectionType := "fraud_burst"
  severity := "high"
  userId := "u1"
  transactionId := "t1"
  timestamp := .wallClock
  ipAddress := none
  details := []

/-- An empty Redis without clients. -/
def idle : System := ⟨0, fun _ => none, fun _ => .idle⟩

/-- The transaction of `burst` is executed, its reply is lost, and `burst` is delivered again. -/
def redelivery : List Label :=
  [.start burst, .internal burst, .internal burst, .internal burst, .exec burst [.quarantine] false,
    .start burst, .internal burst, .hit burst [.quarantine]]

theorem redelivery_run : ∃ t, Run (LiveStep {} "d1") idle redelivery t :=
  ⟨_, .cons ⟨.start 0 burst rfl, nofun⟩ (.cons ⟨.watch 0 burst rfl, nofun⟩
    (.cons ⟨.miss 0 burst (watchOf burst) rfl rfl (by decide), nofun⟩
    (.cons ⟨.plan 0 burst (watchOf burst) rfl, nofun⟩
    (.cons ⟨.exec 0 burst (watchOf burst) (plan {} burst false) false rfl rfl, nofun⟩
    (.cons ⟨.start 1 burst rfl, nofun⟩ (.cons ⟨.watch 1 burst rfl, nofun⟩
    (.single ⟨.hit 1 burst (watchOf burst) (encodeActions [.quarantine]) [.quarantine] rfl rfl rfl,
      nofun⟩)))))))⟩

theorem redelivery_oneType : OneType "d1" redelivery := by
  intro l hl l' hl' d d' hd hd' _ _
  have hall : ∀ l ∈ redelivery, ∀ d, l.detection = some d → d = burst := by
    simp [redelivery, Label.detection]
  rw [hall l hl d hd, hall l' hl' d' hd']

end Sample

/-- A redelivery after a lost reply. -/
theorem containment_once_lost_reply :
    ∃ t, Run (LiveStep {} "d1") Sample.idle Sample.redelivery t ∧
      Sample.redelivery.countP (Label.writes "d1") = 1 ∧
      (∀ l ∈ Sample.redelivery, ∀ d a, l.returned = some (d, a) → d.detectionId = "d1" → a = [.quarantine]) ∧
      ∀ l u, ContainStep {} t l u → l.detection = some Sample.burst → u.db = t.db := by
  obtain ⟨t, h⟩ := Sample.redelivery_run
  obtain ⟨hone, hsame, hfixed⟩ := containment_once (fun _ => rfl) h
  have hwritten : 0 < Sample.redelivery.countP (Label.writes "d1") := by decide
  refine ⟨t, h, Nat.le_antisymm hone hwritten, fun l hl d a hret hi => ?_,
    fun l u hl hd => hfixed (.inl (by decide)) l u _ hl hd rfl⟩
  exact (hsame Sample.redelivery_oneType l hl (.hit Sample.burst [.quarantine]) (by simp [Sample.redelivery])
    d Sample.burst a [.quarantine] hret rfl hi rfl).1

end Rtace.Containment
