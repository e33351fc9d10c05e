import Mathlib.Data.Finset.Card
import Rtace.Common.Keys
import Rtace.Common.Redis

/-!
# The listing of the rules

`list_rules` of `common/enforcement.py`: for each kind of rule one `SCAN` loop, then one pipeline of `TTL`
and `GET` for the keys it found, from which the listing is put together by position. The commands are
single steps, and between any two of them Redis may change: rules expire, are lifted, are set.

Of the rules of one group: what is listed of them is as it should be exactly if the keys that the loop found
and the replies of the pipeline allow it (`sound_rulesOf`).
-/

namespace Rtace.Enforcement

open Lib Redis

/-! ## The source -/

/-- The groups of the listing. -/
inductive Group where
  | quarantines
  | stepUps
  | ipBlocks
  deriving DecidableEq, Repr

namespace Group

/-- The prefix of the keys of a group. -/
def keyPrefix : Group → String
  | quarantines => quarantineKeyPrefix
  | stepUps => stepUpKeyPrefix
  | ipBlocks => ipBlockKeyPrefix

/-- The name under which a rule gives its subject. -/
def subjectField : Group → String
  | quarantines => "user_id"
  | stepUps => "user_id"
  | ipBlocks => "ip"

/-- `groups`, in order. -/
def all : List Group := [quarantines, stepUps, ipBlocks]

/-- The keys of a group: those its pattern matches. -/
def keys (g : Group) : Set String := keyFamily g.keyPrefix

theorem mem_all (g : Group) : g ∈ all := by
  cases g <;> decide

end Group

/-- A reply to a pipelined command. -/
inductive PipelineReply where
  | int (n : ℤ)
  | bulk (p : Payload)
  | nil
  | wrongType

/-- A pipelined command. -/
inductive Command where
  | ttl (key : String)
  | get (key : String)

/-- The reply of `GET`, with the error for a key that holds no string. -/
def getReply : Option Entry → PipelineReply
  | none => .nil
  | some ⟨.str p, _⟩ => .bulk p
  | some _ => .wrongType

def Command.reply (now : ℕ) (db : Db) : Command → PipelineReply
  | ttl key => .int (Redis.ttl now key db).1
  | get key => getReply (db key)

/-- The pipeline for the keys of a group. -/
def commands (keys : List String) : List Command := keys.flatMap fun key => [.ttl key, .get key]

def PipelineReply.isError : PipelineReply → Bool
  | wrongType => true
  | _ => false

/-- `execute`: an error among the replies is raised. -/
def execute (flat : List PipelineReply) : Except PyError (List PipelineReply) :=
  if flat.any PipelineReply.isError then .error .other else .ok flat

/-- A listed rule. -/
structure Rule where
  subjectField : String
  subject : String
  key : String
  ttlSeconds : PipelineReply
  setBy : PipelineReply

/-- `key[len(prefix):]`. -/
def subjectText (g : Group) (key : String) : String := String.ofList (key.toList.drop g.keyPrefix.length)

/-- The subject of a rule; dashes in an address are read back as colons. -/
def subjectOf (g : Group) (key : String) : String :=
  let subject := subjectText g key
  if g.subjectField = "ip" ∧ '-' ∈ subject.toList then
    String.ofList (subject.toList.map fun c => if c = '-' then ':' else c)
  else subject

/-- The rules of a group: the replies of the key at `i` are at `2 * i` and `2 * i + 1`. There is one reply
for each command, so neither is missing. -/
def rulesOf (g : Group) (keys : List String) (flat : List PipelineReply) : List Rule :=
  keys.zipIdx.map fun (key, i) =>
    { subjectField := g.subjectField
      subject := subjectOf g key
      key := key
      ttlSeconds := flat.getD (2 * i) .nil
      setBy := flat.getD (2 * i + 1) .nil }

/-- What `list_rules` returns. -/
structure Listing where
  rules : Group → List Rule
  count : ℕ

/-- `sum(len(v) for v in result.values())`. -/
def countOf (rules : Group → List Rule) : ℕ := (Group.all.map fun g => (rules g).length).sum

/-! ## The system -/

/-- A `SCAN` loop: the keys it has yielded, those that have been there ever since it began, and those that
have been there at some time since. -/
structure Cursor where
  found : List String
  steady : Set String
  seen : Set String

/-- The keys that are there. -/
def liveKeys (db : Db) : Set String := {k | (db k).isSome}

def Cursor.start (db : Db) : Cursor := ⟨[], liveKeys db, liveKeys db⟩

/-- The loop after a change of Redis. -/
def Cursor.observe (c : Cursor) (db : Db) : Cursor := ⟨c.found, c.steady ∩ liveKeys db, c.seen ∪ liveKeys db⟩

/-- Where a call is: in the loop of a group, in its pipeline with the replies so far, or back. `todo` are the
groups after the present one. -/
inductive Phase where
  | scanning (g : Group) (todo : List Group) (c : Cursor)
  | asking (g : Group) (todo : List Group) (keys : List String) (flat : List PipelineReply)
  | returned (out : Except PyError Listing)

/-- Redis and the call. -/
structure State where
  now : ℕ
  db : Db
  result : Group → List Rule
  phase : Phase

/-- What happens: a change of Redis, a page of a `SCAN` loop, its end, a reply of the pipeline, its end. -/
inductive Label where
  | elsewhere (db : Db)
  | page (keys : List String)
  | scanned (g : Group) (keys : List String)
  | asked (c : Command) (now : ℕ) (db : Db)
  | collected

/-- The begin of a call. -/
def State.start (now : ℕ) (db : Db) : State where
  now := now
  db := purge now db
  result := fun _ => []
  phase := .scanning .quarantines [.stepUps, .ipBlocks] (.start (purge now db))

/-- After the pipeline of a group: its rules, then the next group or the return. -/
def State.collect (s : State) (g : Group) (todo : List Group) (keys : List String) (flat : List PipelineReply) :
    State :=
  match execute flat with
  | .error e => { s with phase := .returned (.error e) }
  | .ok flat =>
      let result := Function.update s.result g (rulesOf g keys flat)
      match todo with
      | [] => { s with result, phase := .returned (.ok ⟨result, countOf result⟩) }
      | g' :: todo => { s with result, phase := .scanning g' todo (.start s.db) }

/-- The phase after a change of Redis. -/
def Phase.observe (db : Db) : Phase → Phase
  | scanning g todo c => scanning g todo (c.observe db)
  | p => p

/-- One step. Of `SCAN` only this is known: it yields keys of its pattern that have been there at some time
since the loop began, some of them perhaps several times, and all that have been there ever since. -/
inductive ListStep (s : State) : Label → State → Prop
  | elsewhere (now : ℕ) (db : Db) (hnow : s.now ≤ now) :
      ListStep s (.elsewhere (purge now db))
        { s with now, db := purge now db, phase := s.phase.observe (purge now db) }
  | page {g : Group} {todo : List Group} {c : Cursor} (keys : List String) (hphase : s.phase = .scanning g todo c)
      (hkeys : ∀ k ∈ keys, k ∈ g.keys ∧ k ∈ c.seen) :
      ListStep s (.page keys) { s with phase := .scanning g todo { c with found := c.found ++ keys } }
  | scanned {g : Group} {todo : List Group} {c : Cursor} (hphase : s.phase = .scanning g todo c)
      (hall : ∀ k ∈ c.steady, k ∈ g.keys → k ∈ c.found) :
      ListStep s (.scanned g c.found) { s with phase := .asking g todo c.found [] }
  | asked {g : Group} {todo : List Group} {keys : List String} {flat : List PipelineReply} (c : Command)
      (hphase : s.phase = .asking g todo keys flat) (hnext : (commands keys)[flat.length]? = some c) :
      ListStep s (.asked c s.now s.db)
        { s with phase := .asking g todo keys (flat ++ [c.reply s.now s.db]) }
  | collected {g : Group} {todo : List Group} {keys : List String} {flat : List PipelineReply}
      (hphase : s.phase = .asking g todo keys flat) (hall : flat.length = (commands keys).length) :
      ListStep s .collected (s.collect g todo keys flat)

/-! ## What a listing should be -/

/-- The key has been there all the time. -/
def LiveThroughout (db : Db) (ls : List Label) (k : String) : Prop :=
  k ∈ liveKeys db ∧ ∀ db', .elsewhere db' ∈ ls → k ∈ liveKeys db'

/-- A positive lifetime and an origin. -/
def Rule.Active (r : Rule) : Prop := (∃ n > 0, r.ttlSeconds = .int n) ∧ ∃ p, r.setBy = .bulk p

/-- The keys of all listed rules. -/
def Listing.keys (l : Listing) : List String := Group.all.flatMap fun g => (l.rules g).map Rule.key

/-- The listing is exact: each rule that stays is listed once, all that is listed is active, the count is the
number of distinct rules, and each listed address leads back to its key. -/
structure Listing.Exact (stays : String → Prop) (l : Listing) : Prop where
  once : ∀ g, ∀ k ∈ g.keys, stays k → ((l.rules g).map Rule.key).count k = 1
  active : ∀ g, ∀ r ∈ l.rules g, r.Active
  count : l.count = l.keys.toFinset.card
  address : ∀ r ∈ l.rules .ipBlocks, ipBlockKey r.subject = r.key

/-- What is needed of a step: the `SCAN` loop yields no key twice and no block key with a colon in its
address, a key that is asked for has at least half a second to live at its `TTL`, and is still there, as a
string, at its `GET`. -/
def Label.Fine : Label → Prop
  | scanned g keys => keys.Nodup ∧ (g = .ipBlocks → ∀ k ∈ keys, ':' ∉ (subjectText g k).toList)
  | asked (.ttl k) now db => ∃ e t, db k = some e ∧ e.expireAt = some t ∧ now + 500 ≤ t
  | asked (.get k) _ db => (payload (db k)).isSome
  | _ => True

/-! ## One group -/

section

variable {keys : List String} {flat : List PipelineReply} {g : Group}

theorem commands_cons (key : String) (keys : List String) :
    commands (key :: keys) = .ttl key :: .get key :: commands keys := rfl

theorem length_commands (keys : List String) : (commands keys).length = 2 * keys.length := by
  induction keys with
  | nil => rfl
  | cons key keys ih =>
      rw [commands_cons, List.length_cons, List.length_cons, ih, List.length_cons]
      omega

/-- The commands of the key at `i` are where the listing looks for their replies. -/
theorem commands_getElem (keys : List String) (i : ℕ) :
    (commands keys)[2 * i]? = keys[i]?.map .ttl ∧ (commands keys)[2 * i + 1]? = keys[i]?.map .get := by
  induction keys generalizing i with
  | nil => simp [commands]
  | cons key keys ih =>
      rw [commands_cons]
      cases i with
      | zero => exact ⟨rfl, rfl⟩
      | succ i =>
          have hindex : 2 * (i + 1) = 2 * i + 1 + 1 := by ring
          simpa only [hindex, List.getElem?_cons_succ] using ih i

/-- The reply makes the rule active. -/
def Command.Answered : Command → PipelineReply → Prop
  | ttl _, r => ∃ n > 0, r = .int n
  | get _, r => ∃ p, r = .bulk p

/-- The replies so far make the rules active. -/
def AllAnswered (keys : List String) (flat : List PipelineReply) : Prop :=
  ∀ (i : ℕ) (c : Command) (r : PipelineReply), (commands keys)[i]? = some c → flat[i]? = some r → c.Answered r

theorem remaining_pos {now : ℕ} {e : Option Entry} :
    0 < remaining now e ↔ ∃ x t, e = some x ∧ x.expireAt = some t ∧ now + 500 ≤ t := by
  cases e with
  | none => simp [remaining]
  | some x =>
      cases hx : x.expireAt with
      | none => simp [remaining, hx]
      | some t =>
          have hpos : (0 : ℤ) < ((t - now + 500) / 1000 : ℕ) ↔ now + 500 ≤ t := by omega
          rw [remaining, hx]
          constructor
          · intro h
            exact ⟨x, t, rfl, hx, hpos.mp h⟩
          · rintro ⟨x', t', hx', ht', h⟩
            cases hx'
            cases hx.symm.trans ht'
            exact hpos.mpr h

theorem getReply_bulk {e : Option Entry} : (∃ p, getReply e = .bulk p) ↔ (payload e).isSome := by
  rcases e with _ | ⟨_ | _ | _, t⟩ <;> simp [getReply, payload]

/-- A reply makes its rule active exactly if the step is fine. -/
theorem answered_reply (c : Command) (now : ℕ) (db : Db) :
    c.Answered (c.reply now db) ↔ (Label.asked c now db).Fine := by
  cases c with
  | ttl key =>
      rw [Label.Fine, ← remaining_pos]
      simp [Command.Answered, Command.reply]
  | get key => exact getReply_bulk

theorem answered_concat {c : Command} {r : PipelineReply} (hnext : (commands keys)[flat.length]? = some c) :
    AllAnswered keys (flat ++ [r]) ↔ AllAnswered keys flat ∧ c.Answered r := by
  constructor
  · intro h
    refine ⟨fun i c' r' hc hr => h i c' r' hc ?_, h flat.length c r hnext (by simp)⟩
    rwa [List.getElem?_append_left (List.getElem?_eq_some_iff.mp hr).1]
  · rintro ⟨hbefore, hlast⟩ i c' r' hc hr
    rcases Nat.lt_trichotomy i flat.length with hlt | rfl | hgt
    · rw [List.getElem?_append_left hlt] at hr
      exact hbefore i c' r' hc hr
    · obtain rfl : c = c' := Option.some.inj (hnext.symm.trans hc)
      obtain rfl : r = r' := by simpa using hr
      exact hlast
    · have hlen := (List.getElem?_eq_some_iff.mp hr).1
      simp at hlen
      omega

/-- Answered replies hold no error. -/
theorem execute_answered (hlen : flat.length = (commands keys).length) (h : AllAnswered keys flat) :
    execute flat = .ok flat := by
  refine if_neg fun herror => ?_
  obtain ⟨r, hr, herror⟩ := List.any_eq_true.mp herror
  obtain ⟨i, hi, rfl⟩ := List.getElem_of_mem hr
  have hanswer := h i _ _ (List.getElem?_eq_getElem (hlen ▸ hi)) (List.getElem?_eq_getElem hi)
  cases hc : (commands keys)[i] with
  | ttl key =>
      rw [hc] at hanswer
      obtain ⟨n, -, hn⟩ := hanswer
      rw [hn] at herror
      cases herror
  | get key =>
      rw [hc] at hanswer
      obtain ⟨p, hp⟩ := hanswer
      rw [hp] at herror
      cases herror

theorem rulesOf_keys (g : Group) (keys : List String) (flat : List PipelineReply) :
    (rulesOf g keys flat).map Rule.key = keys := by
  simp only [rulesOf, List.map_map, Function.comp_def]
  exact List.zipIdx_map_fst 0 keys

theorem mem_rulesOf {r : Rule} (h : r ∈ rulesOf g keys flat) :
    ∃ i, keys[i]? = some r.key ∧ r.subject = subjectOf g r.key ∧ r.ttlSeconds = flat.getD (2 * i) .nil ∧
      r.setBy = flat.getD (2 * i + 1) .nil := by
  obtain ⟨⟨key, i⟩, hmem, rfl⟩ := List.mem_map.mp h
  exact ⟨i, List.mem_zipIdx_iff_getElem?.mp hmem, rfl, rfl, rfl⟩

/-- By position, the rules are active exactly if the commands are answered. -/
theorem active_rulesOf (hlen : flat.length = (commands keys).length) :
    (∀ r ∈ rulesOf g keys flat, r.Active) ↔ AllAnswered keys flat := by
  have hlook : ∀ {i key}, keys[i]? = some key →
      flat[2 * i]? = some (flat.getD (2 * i) .nil) ∧ flat[2 * i + 1]? = some (flat.getD (2 * i + 1) .nil) := by
    intro i key hkey
    have hi := (List.getElem?_eq_some_iff.mp hkey).1
    rw [length_commands] at hlen
    simp [List.getD_eq_getElem?_getD, show 2 * i < flat.length by omega, show 2 * i + 1 < flat.length by omega]
  constructor
  · intro h i c r hc hr
    -- the command at an index is the `TTL` or the `GET` of the key at half the index
    obtain ⟨j, rfl | rfl⟩ : ∃ j, i = 2 * j ∨ i = 2 * j + 1 := ⟨i / 2, by omega⟩
    · rw [(commands_getElem keys j).1] at hc
      obtain ⟨key, hkey, rfl⟩ := Option.map_eq_some_iff.mp hc
      obtain ⟨hactive, -⟩ := h _ (List.mem_map.mpr ⟨(key, j), List.mem_zipIdx_iff_getElem?.mpr hkey, rfl⟩)
      rw [(hlook hkey).1] at hr
      cases hr
      exact hactive
    · rw [(commands_getElem keys j).2] at hc
      obtain ⟨key, hkey, rfl⟩ := Option.map_eq_some_iff.mp hc
      obtain ⟨-, hactive⟩ := h _ (List.mem_map.mpr ⟨(key, j), List.mem_zipIdx_iff_getElem?.mpr hkey, rfl⟩)
      rw [(hlook hkey).2] at hr
      cases hr
      exact hactive
  · intro h r hr
    obtain ⟨i, hkey, -, httl, hset⟩ := mem_rulesOf hr
    obtain ⟨hc, hc'⟩ := commands_getElem keys i
    rw [hkey] at hc hc'
    constructor
    · rw [httl]
      exact h _ _ _ hc (hlook hkey).1
    · rw [hset]
      exact h _ _ _ hc' (hlook hkey).2

/-- Read back and written again, an address has dashes where it had dashes or colons. -/
theorem sanitize_subjectOf (key : String) :
    (sanitizeIpForKey (subjectOf .ipBlocks key)).toList =
      (subjectText .ipBlocks key).toList.map fun c => if c = ':' then '-' else c := by
  simp only [subjectOf]
  split
  · simp only [sanitizeIpForKey, String.toList_ofList, List.map_map]
    refine List.map_congr_left fun c _ => ?_
    by_cases hdash : c = '-'
    · simp [hdash]
    · simp [hdash]
  · simp only [sanitizeIpForKey, String.toList_ofList]

/-- A listed address leads back to its key exactly if the key has no colon there. -/
theorem ipBlockKey_subjectOf {key : String} (h : key ∈ Group.ipBlocks.keys) :
    ipBlockKey (subjectOf .ipBlocks key) = key ↔ ':' ∉ (subjectText .ipBlocks key).toList := by
  obtain ⟨rest, hrest⟩ := h
  have htext : (subjectText .ipBlocks key).toList = rest := by
    simp only [subjectText, String.toList_ofList, ← hrest, ← String.length_toList, List.drop_left]
  have hkey : ipBlockKey (subjectOf .ipBlocks key) = key ↔
      (sanitizeIpForKey (subjectOf .ipBlocks key)).toList = rest := by
    rw [ipBlockKey, String.ext_iff, String.toList_append, ← hrest]
    exact List.append_right_inj _
  rw [hkey, sanitize_subjectOf, htext]
  nth_rewrite 2 [← List.map_id rest]
  rw [List.map_inj_left]
  constructor
  · intro hsame hcolon
    exact absurd (hsame ':' hcolon) (by decide)
  · intro hcolon c hc
    have hne : c ≠ ':' := fun heq => hcolon (heq ▸ hc)
    exact if_neg hne

/-- The rules of a group are as they should be. -/
structure Sound (g : Group) (rules : List Rule) : Prop where
  nodup : (rules.map Rule.key).Nodup
  active : ∀ r ∈ rules, r.Active
  address : g = .ipBlocks → ∀ r ∈ rules, ipBlockKey r.subject = r.key

theorem sound_nil (g : Group) : Sound g [] := ⟨List.nodup_nil, by simp, by simp⟩

/-- The rules of a group are as they should be exactly if the steps that led to them are fine. -/
theorem sound_rulesOf (hkeys : ∀ k ∈ keys, k ∈ g.keys) (hlen : flat.length = (commands keys).length) :
    Sound g (rulesOf g keys flat) ↔ (Label.scanned g keys).Fine ∧ AllAnswered keys flat := by
  have haddress : (g = .ipBlocks → ∀ r ∈ rulesOf g keys flat, ipBlockKey r.subject = r.key) ↔
      (g = .ipBlocks → ∀ k ∈ keys, ':' ∉ (subjectText g k).toList) := by
    refine forall_congr' fun hg => ?_
    subst hg
    constructor
    · intro h k hk
      rw [← rulesOf_keys .ipBlocks keys flat] at hk
      obtain ⟨r, hr, rfl⟩ := List.mem_map.mp hk
      obtain ⟨i, hi, hsubject, -⟩ := mem_rulesOf hr
      rw [← ipBlockKey_subjectOf (hkeys _ (List.mem_of_getElem? hi)), ← hsubject]
      exact h r hr
    · intro h r hr
      obtain ⟨i, hi, hsubject, -⟩ := mem_rulesOf hr
      have hmem := List.mem_of_getElem? hi
      rw [hsubject]
      exact (ipBlockKey_subjectOf (hkeys _ hmem)).mpr (h _ hmem)
  constructor
  · rintro ⟨hnodup, hactive, haddr⟩
    rw [rulesOf_keys] at hnodup
    exact ⟨⟨hnodup, haddress.mp haddr⟩, (active_rulesOf hlen).mp hactive⟩
  · rintro ⟨⟨hnodup, hcolon⟩, hanswered⟩
    refine ⟨?_, (active_rulesOf hlen).mpr hanswered, haddress.mpr hcolon⟩
    rwa [rulesOf_keys]

end

end Rtace.Enforcement
