import Mathlib
import Kiln.Lib.Transition

/-!
# The request rate limiter

`assertRequestRateLimit` of apps/web/src/lib/request-rate-limit.ts: a Map, in the order in which its keys were first
set, of the times of the calls that were accepted. Each key is used with a limit and a window of its own. The
clean-up that bounds the map judges every key by the window of the call it runs in.
-/

set_option linter.unusedSectionVars false

namespace Kiln.Hearth
open Kiln.Lib List

/-- `maximumTrackedKeys` -/
def maximumTrackedKeys : Nat := 10000

section

variable {κ : Type} [DecidableEq κ]

/-- `Map.get`, or nothing. -/
def hitsOf (windows : List (κ × List Int)) (key : κ) : List Int := ((windows.lookup key).getD [])

/-- `Map.set` -/
def setHits (key : κ) (hits : List Int) : List (κ × List Int) → List (κ × List Int)
  | [] => [(key, hits)]
  | entry :: rest => if entry.1 = key then (key, hits) :: rest else entry :: setHits key hits rest

/-- The clean-up, over the entries that are left of a map of the given size. -/
def sweepWindows (cutoff : Int) : Nat → List (κ × List Int) → List (κ × List Int)
  | _, [] => []
  | size, entry :: rest =>
      let stale := entry.2.all (· ≤ cutoff)
      let left := if stale then size - 1 else size
      let kept := if left ≤ maximumTrackedKeys / 2 then rest else sweepWindows cutoff left rest
      if stale then kept else entry :: kept

/-- `assertRequestRateLimit`: the windows after an accepted call. -/
def assertRequestRateLimit (windows : List (κ × List Int)) (key : κ) (limit : Nat) (windowMs now : Int) :
    Option (List (κ × List Int)) :=
  let cutoff := now - windowMs
  let hits := (hitsOf windows key).filter (cutoff < ·)
  if limit ≤ hits.length then none
  else
    let set := setHits key (hits ++ [now]) windows
    some (if maximumTrackedKeys < set.length then sweepWindows cutoff set.length set else set)

end

/-! ## Runs -/

/-- A key's limit and its window. -/
structure RequestLimit where
  limit : Nat
  windowMs : Int

structure RequestCall (κ : Type) where
  key : κ
  now : Int
  deriving DecidableEq

structure RateAnswer (κ : Type) extends RequestCall κ where
  accepted : Bool
  deriving DecidableEq

structure RateState (κ : Type) where
  windows : List (κ × List Int) := []
  /-- Every call so far, oldest first. -/
  answers : List (RateAnswer κ) := []

section

variable {κ : Type} [DecidableEq κ]

namespace RateState

def answer (limits : κ → RequestLimit) (s : RateState κ) (call : RequestCall κ) : RateState κ :=
  match assertRequestRateLimit s.windows call.key (limits call.key).limit (limits call.key).windowMs call.now with
  | none => { s with answers := s.answers ++ [⟨call, false⟩] }
  | some windows => { windows, answers := s.answers ++ [⟨call, true⟩] }

/-- Time doesn't go back. -/
def next (limits : κ → RequestLimit) (s : RateState κ) (call : RequestCall κ) : Option (RateState κ) :=
  if ∀ earlier ∈ s.answers, earlier.now ≤ call.now then some (s.answer limits call) else none

end RateState

def rateSystem (limits : κ → RequestLimit) : System (RateState κ) (RequestCall κ) :=
  .ofFunction (· = {}) (RateState.next limits)

/-- How many calls for a key were accepted after one time and until another. -/
def acceptedBetween (answers : List (RateAnswer κ)) (key : κ) (after until_ : Int) : Nat :=
  answers.countP fun answer => answer.accepted && answer.key = key && decide (after < answer.now) &&
    decide (answer.now ≤ until_)

/-- Every window of a key holds at most its limit; a call is refused for a full window ending at it; and what the calls
for a key are answered is what they are answered without the others. -/
structure RateState.Limits (limits : κ → RequestLimit) (s : RateState κ) : Prop where
  atMost : ∀ key t, acceptedBetween s.answers key (t - (limits key).windowMs) t ≤ (limits key).limit
  refused : ∀ earlier answer later, s.answers = earlier ++ answer :: later → answer.accepted = false →
    (limits answer.key).limit =
      acceptedBetween earlier answer.key (answer.now - (limits answer.key).windowMs) answer.now
  alone : ∀ key, s.answers.filter (·.key = key) =
    (((s.answers.filter (·.key = key)).map (·.toRequestCall)).foldl (RateState.answer limits) {}).answers

/-- The clean-up of a call drops no time that is still in its own key's window. -/
def RateState.sparing (limits : κ → RequestLimit) (s : RateState κ) (call : RequestCall κ) : Bool :=
  match assertRequestRateLimit s.windows call.key (limits call.key).limit (limits call.key).windowMs call.now with
  | none => true
  | some windows => s.windows.all fun entry =>
      windows.any (·.1 = entry.1) || entry.2.all (· ≤ call.now - (limits entry.1).windowMs)

/-! ## The map -/

theorem lookup_setHits (key other : κ) (hits : List Int) (windows : List (κ × List Int)) :
    (setHits key hits windows).lookup other = if other = key then some hits else windows.lookup other := by
  induction windows with
  | nil =>
    rw [setHits, lookup_cons, lookup_nil]
    by_cases same : other = key
    · rw [if_pos same, beq_iff_eq.mpr same]
    · rw [if_neg same, beq_eq_false_iff_ne.mpr same]
  | cons entry rest ih =>
    obtain ⟨at_, stamps⟩ := entry
    by_cases found : at_ = key
    · subst found
      simp only [setHits, if_true, lookup_cons]
      by_cases same : other = at_
      · rw [if_pos same, beq_iff_eq.mpr same]
      · rw [if_neg same, beq_eq_false_iff_ne.mpr same]
    · simp only [setHits, if_neg found, lookup_cons, ih]
      by_cases same : other = at_
      · have different : other ≠ key := fun is => found (same ▸ is)
        simp only [beq_iff_eq.mpr same, if_neg different]
      · rw [beq_eq_false_iff_ne.mpr same]

theorem keys_setHits (key : κ) (hits : List Int) (windows : List (κ × List Int)) :
    (setHits key hits windows).map Prod.fst =
      if key ∈ windows.map Prod.fst then windows.map Prod.fst else windows.map Prod.fst ++ [key] := by
  induction windows with
  | nil => rfl
  | cons entry rest ih =>
    by_cases found : entry.1 = key
    · simp only [setHits, map_cons, found, mem_cons, true_or, if_true]
    · have different : key ≠ entry.1 := fun is => found is.symm
      simp only [setHits, if_neg found, map_cons, ih, mem_cons, different, false_or]
      split
      · rfl
      · rfl

variable {windows : List (κ × List Int)}

theorem nodup_setHits (key : κ) (hits : List Int) (distinct : (windows.map Prod.fst).Nodup) :
    ((setHits key hits windows).map Prod.fst).Nodup := by
  rw [keys_setHits]
  split
  · exact distinct
  · rename_i new
    exact nodup_append.mpr ⟨distinct, nodup_singleton key, fun a member b is => by
      rw [mem_singleton.mp is]
      exact fun same => new (same ▸ member)⟩

theorem sweepWindows_sublist (cutoff : Int) (size : Nat) (windows : List (κ × List Int)) :
    (sweepWindows cutoff size windows).Sublist windows := by
  induction windows generalizing size with
  | nil => exact .slnil
  | cons entry rest ih =>
    unfold sweepWindows
    dsimp only
    generalize (if entry.2.all (· ≤ cutoff) then size - 1 else size) = left
    have kept : (if left ≤ maximumTrackedKeys / 2 then rest else sweepWindows cutoff left rest).Sublist rest := by
      split
      · exact .refl rest
      · exact ih left
    split
    · exact kept.cons entry
    · exact kept.cons_cons entry

/-- What the clean-up drops is out of the call's window. -/
theorem stale_of_swept {cutoff : Int} {size : Nat} {entry : κ × List Int} (there : entry ∈ windows)
    (gone : entry ∉ sweepWindows cutoff size windows) : ∀ at_ ∈ entry.2, at_ ≤ cutoff := by
  induction windows generalizing size with
  | nil => exact absurd there not_mem_nil
  | cons first rest ih =>
    unfold sweepWindows at gone
    dsimp only at gone
    generalize (if first.2.all (· ≤ cutoff) then size - 1 else size) = left at gone
    by_cases stale : first.2.all (· ≤ cutoff) = true
    · rw [if_pos stale] at gone
      rcases mem_cons.mp there with rfl | later
      · intro at_ member
        exact of_decide_eq_true (all_eq_true.mp stale at_ member)
      · split at gone
        · exact absurd later gone
        · exact ih later gone
    · rw [if_neg stale, mem_cons, not_or] at gone
      have later := (mem_cons.mp there).resolve_left gone.1
      obtain ⟨-, gone⟩ := gone
      split at gone
      · exact absurd later gone
      · exact ih later gone

variable {key : κ} {stamps : List Int}

theorem mem_of_lookup (is : windows.lookup key = some stamps) : (key, stamps) ∈ windows := by
  obtain ⟨before, after, rfl, -⟩ := lookup_eq_some_iff.mp is
  exact mem_append_right _ mem_cons_self

theorem lookup_of_mem (distinct : (windows.map Prod.fst).Nodup) (member : (key, stamps) ∈ windows) :
    windows.lookup key = some stamps := by
  induction windows with
  | nil => exact absurd member not_mem_nil
  | cons entry rest ih =>
    rw [map_cons, nodup_cons] at distinct
    rw [lookup_cons]
    rcases mem_cons.mp member with same | later
    · rw [← same, beq_self_eq_true]
    · have different : key ≠ entry.1 := fun is => distinct.1 (is ▸ mem_map_of_mem later)
      rw [beq_eq_false_iff_ne.mpr different]
      exact ih distinct.2 later

/-! ## An accepted call -/

/-- The windows before and after an accepted call: the call's own key, and each other one. -/
theorem hitsOf_accepted {after : List (κ × List Int)} (distinct : (windows.map Prod.fst).Nodup) {limit : Nat}
    {windowMs now : Int} (accepts : assertRequestRateLimit windows key limit windowMs now = some after) :
    (after.map Prod.fst).Nodup ∧ (hitsOf after key = (hitsOf windows key).filter (now - windowMs < ·) ++ [now] ∨
        hitsOf after key = [] ∧ now ≤ now - windowMs ∧ ∀ at_ ∈ hitsOf windows key, at_ ≤ now - windowMs) ∧
      ∀ other ≠ key, hitsOf after other = hitsOf windows other ∨
        hitsOf after other = [] ∧ (other, hitsOf windows other) ∈ windows ∧ after.any (·.1 = other) = false := by
  unfold assertRequestRateLimit at accepts
  dsimp only at accepts
  obtain ⟨-, is⟩ := Option.ite_none_left_eq_some.mp accepts
  have after_ := Option.some.inj is
  generalize hits : (hitsOf windows key).filter (now - windowMs < ·) = fresh at after_
  have distinct' := nodup_setHits key (fresh ++ [now]) distinct
  have own := lookup_setHits key key (fresh ++ [now]) windows
  rw [if_pos rfl] at own
  have others : ∀ other ≠ key, (setHits key (fresh ++ [now]) windows).lookup other = windows.lookup other := by
    intro other different
    rw [lookup_setHits, if_neg different]
  generalize setHits key (fresh ++ [now]) windows = set at *
  split at after_
  · -- the clean-up keeps an entry as it is, or drops it
    have sub := sweepWindows_sublist (now - windowMs) set.length set
    rw [after_] at sub
    have kept := distinct'.sublist (sub.map Prod.fst)
    have each : ∀ other stamps, set.lookup other = some stamps → after.lookup other = some stamps ∨
        after.lookup other = none ∧ ∀ at_ ∈ stamps, at_ ≤ now - windowMs := by
      intro other stamps found
      by_cases member : (other, stamps) ∈ after
      · exact .inl (lookup_of_mem kept member)
      refine .inr ⟨?_, stale_of_swept (mem_of_lookup found) (after_ ▸ member)⟩
      cases left : after.lookup other with
      | none => rfl
      | some stamps' =>
        have same := lookup_of_mem distinct' (sub.subset (mem_of_lookup left))
        cases same.symm.trans found
        exact absurd (mem_of_lookup left) member
    refine ⟨kept, ?_, fun other different => ?_⟩
    · rcases each key _ own with same | ⟨none_, stale⟩
      · exact .inl (by rw [hitsOf, same, Option.getD_some])
      · refine .inr ⟨by rw [hitsOf, none_, Option.getD_none], stale now (mem_append_right _ (by simp)), ?_⟩
        intro at_ member
        by_contra later
        refine absurd (stale at_ (mem_append_left _ ?_)) later
        rw [← hits, mem_filter]
        exact ⟨member, decide_eq_true (Int.not_le.mp later)⟩
    cases found : windows.lookup other with
    | none =>
      have none_ : after.lookup other = none := by
        cases left : after.lookup other with
        | none => rfl
        | some stamps' =>
          have same := lookup_of_mem distinct' (sub.subset (mem_of_lookup left))
          rw [others other different, found] at same
          cases same
      exact .inl (by rw [hitsOf, hitsOf, found, none_])
    | some stamps =>
      have its : hitsOf windows other = stamps := by rw [hitsOf, found, Option.getD_some]
      rcases each other stamps ((others other different).trans found) with same | ⟨none_, -⟩
      · exact .inl (by rw [its, hitsOf, same, Option.getD_some])
      refine .inr ⟨by rw [hitsOf, none_, Option.getD_none], its ▸ mem_of_lookup found, ?_⟩
      rw [any_eq_false]
      intro entry member same
      rw [decide_eq_true_eq] at same
      have is' := lookup_of_mem kept (show (entry.1, entry.2) ∈ _ from member)
      rw [same, none_] at is'
      exact absurd is' nofun
  · obtain rfl := after_
    refine ⟨distinct', .inl (by rw [hitsOf, own, Option.getD_some]), fun other different => .inl ?_⟩
    rw [hitsOf, hitsOf, others other different]

/-! ## What is kept -/

/-- Each call is answered by how many were accepted in the window that ends at it. -/
inductive AnswersByCount (limits : κ → RequestLimit) : List (RateAnswer κ) → Prop
  | nil : AnswersByCount limits []
  | snoc {answers : List (RateAnswer κ)} {answer : RateAnswer κ} : AnswersByCount limits answers →
      (∀ earlier ∈ answers, earlier.now ≤ answer.now) →
      answer.accepted = decide (acceptedBetween answers answer.key
        (answer.now - (limits answer.key).windowMs) answer.now < (limits answer.key).limit) →
      AnswersByCount limits (answers ++ [answer])

/-- How many calls for a key were accepted after a time. -/
def acceptedSince (answers : List (RateAnswer κ)) (key : κ) (after : Int) : Nat :=
  answers.countP fun answer => answer.accepted && answer.key = key && decide (after < answer.now)

structure RateState.Kept (limits : κ → RequestLimit) (s : RateState κ) : Prop where
  distinct : (s.windows.map Prod.fst).Nodup
  counts : AnswersByCount limits s.answers
  /-- The windows hold what was accepted, as far as it still counts. -/
  hits : ∀ key after, (∀ answer ∈ s.answers, answer.now - (limits key).windowMs ≤ after) →
    (hitsOf s.windows key).countP (after < ·) = acceptedSince s.answers key after

variable {limits : κ → RequestLimit}

theorem acceptedSince_append (answers : List (RateAnswer κ)) (answer : RateAnswer κ) (key : κ) (after : Int) :
    acceptedSince (answers ++ [answer]) key after = acceptedSince answers key after +
      if answer.accepted = true ∧ answer.key = key ∧ after < answer.now then 1 else 0 := by
  rw [acceptedSince, countP_append, countP_singleton]
  simp only [Bool.and_eq_true, decide_eq_true_eq, and_assoc]
  rfl

theorem acceptedBetween_append (answers : List (RateAnswer κ)) (answer : RateAnswer κ) (key : κ)
    (after until_ : Int) : acceptedBetween (answers ++ [answer]) key after until_ =
      acceptedBetween answers key after until_ +
        if answer.accepted = true ∧ answer.key = key ∧ after < answer.now ∧ answer.now ≤ until_ then 1 else 0 := by
  rw [acceptedBetween, countP_append, countP_singleton]
  simp only [Bool.and_eq_true, decide_eq_true_eq, and_assoc]
  rfl

theorem acceptedBetween_eq {answers : List (RateAnswer κ)} {after until_ : Int}
    (before : ∀ answer ∈ answers, answer.now ≤ until_) :
    acceptedBetween answers key after until_ = acceptedSince answers key after := by
  refine countP_congr fun answer member => ?_
  simp only [Bool.and_eq_true, decide_eq_true_eq]
  exact and_iff_left (before answer member)

theorem length_filter_hits (hits : List Int) (cutoff : Int) :
    (hits.filter (cutoff < ·)).length = hits.countP (cutoff < ·) := countP_eq_length_filter.symm

variable {s : RateState κ} {call : RequestCall κ}

theorem RateState.Kept.decides (kept : s.Kept limits) (before : ∀ earlier ∈ s.answers, earlier.now ≤ call.now) :
    ((hitsOf s.windows call.key).filter (call.now - (limits call.key).windowMs < ·)).length =
      acceptedBetween s.answers call.key (call.now - (limits call.key).windowMs) call.now := by
  rw [length_filter_hits, acceptedBetween_eq before]
  refine kept.hits _ _ fun answer member => ?_
  have earlier := before answer member
  omega

theorem countP_eq_zero_of_le {after bound : Int} (le : ∀ at_ ∈ stamps, at_ ≤ bound) (later : bound ≤ after) :
    stamps.countP (after < ·) = 0 := by
  refine countP_eq_zero.mpr fun at_ member => ?_
  have := le at_ member
  rw [decide_eq_true_eq]
  omega

theorem RateState.Kept.answer (kept : s.Kept limits) (before : ∀ earlier ∈ s.answers, earlier.now ≤ call.now)
    (sparing : s.sparing limits call = true) :
    (s.answer limits call).Kept limits := by
  have decides := kept.decides before
  unfold RateState.answer
  unfold RateState.sparing at sparing
  cases accepts : assertRequestRateLimit s.windows call.key (limits call.key).limit (limits call.key).windowMs
      call.now with
  | none =>
    have full : (limits call.key).limit ≤
        ((hitsOf s.windows call.key).filter (call.now - (limits call.key).windowMs < ·)).length := by
      by_contra room
      rw [assertRequestRateLimit, if_neg room] at accepts
      cases accepts
    refine ⟨kept.distinct, .snoc kept.counts before ?_, fun key after le => ?_⟩
    · exact (decide_eq_false (Nat.not_lt.mpr (decides ▸ full))).symm
    · rw [acceptedSince_append]
      simp only [Bool.false_eq_true, false_and, if_false, Nat.add_zero]
      exact kept.hits key after fun answer member => le answer (mem_append_left _ member)
  | some windows =>
    have room : ¬ (limits call.key).limit ≤
        ((hitsOf s.windows call.key).filter (call.now - (limits call.key).windowMs < ·)).length := by
      intro full
      rw [assertRequestRateLimit, if_pos full] at accepts
      cases accepts
    obtain ⟨distinct, own, others⟩ := hitsOf_accepted kept.distinct accepts
    refine ⟨distinct, .snoc kept.counts before ?_, fun key after le => ?_⟩
    · exact (decide_eq_true (Nat.not_le.mp (decides ▸ room))).symm
    have soFar := kept.hits key after fun answer member => le answer (mem_append_left _ member)
    have latest := le ⟨call, true⟩ (mem_append_right _ (mem_singleton_self _))
    dsimp only at latest
    rw [acceptedSince_append, ← soFar]
    by_cases same : key = call.key
    · subst same
      rcases own with grown | ⟨dropped, early, stale⟩
      · rw [grown, countP_append, countP_filter, countP_singleton]
        congr 1
        · refine countP_congr fun at_ _ => ?_
          simp only [Bool.and_eq_true, decide_eq_true_eq]
          exact ⟨fun both => both.1, fun later => ⟨later, by omega⟩⟩
        · simp
      · rw [dropped, countP_eq_zero_of_le stale latest]
        have late : ¬ after < call.now := by omega
        simp [late]
    · have different : call.key ≠ key := fun is => same is.symm
      simp only [different, false_and, and_false, if_false, Nat.add_zero]
      rcases others key same with unchanged | ⟨dropped, there, gone⟩
      · rw [unchanged]
      simp only [accepts] at sparing
      have spared := all_eq_true.mp sparing _ there
      dsimp only at spared
      rw [gone, Bool.false_or, all_eq_true] at spared
      rw [dropped, countP_eq_zero_of_le (fun at_ member => of_decide_eq_true (spared at_ member)) latest]
      rfl

/-! ## What the answers say -/

namespace AnswersByCount

variable {answers : List (RateAnswer κ)}

/-- The newest call of a window finds at most the limit in the window that ends at it, and that holds all of it. -/
theorem atMost (counts : AnswersByCount limits answers) (key : κ) (t : Int) :
    acceptedBetween answers key (t - (limits key).windowMs) t ≤ (limits key).limit := by
  induction counts with
  | nil => exact Nat.zero_le _
  | @snoc answers answer counts before decides ih =>
    rw [acceptedBetween_append]
    split
    · rename_i its
      obtain ⟨accepted, rfl, -, inside⟩ := its
      rw [accepted] at decides
      have room := of_decide_eq_true decides.symm
      have fewer : acceptedBetween answers answer.key (t - (limits answer.key).windowMs) t ≤
          acceptedBetween answers answer.key (answer.now - (limits answer.key).windowMs) answer.now := by
        refine countP_mono_left fun earlier member => ?_
        have earlier_ := before earlier member
        simp only [Bool.and_eq_true, decide_eq_true_eq]
        intro counted
        exact ⟨⟨counted.1.1, by omega⟩, earlier_⟩
      omega
    · exact ih

theorem split (counts : AnswersByCount limits answers) {earlier later : List (RateAnswer κ)}
    {answer : RateAnswer κ} (is : answers = earlier ++ answer :: later) :
    AnswersByCount limits earlier ∧ answer.accepted = decide (acceptedBetween earlier answer.key
      (answer.now - (limits answer.key).windowMs) answer.now < (limits answer.key).limit) := by
  induction counts generalizing later with
  | nil => exact absurd is (by simp)
  | @snoc answers last counts before decides ih =>
    rcases eq_nil_or_concat later with rfl | ⟨rest, final, rfl⟩
    · obtain ⟨rfl, same⟩ := append_inj' is rfl
      obtain rfl := singleton_inj.mp same
      exact ⟨counts, decides⟩
    · rw [concat_eq_append, ← cons_append, ← append_assoc] at is
      exact ih (append_inj' is rfl).1

theorem refused (counts : AnswersByCount limits answers) {earlier later : List (RateAnswer κ)}
    {answer : RateAnswer κ} (is : answers = earlier ++ answer :: later) (refused : answer.accepted = false) :
    (limits answer.key).limit =
      acceptedBetween earlier answer.key (answer.now - (limits answer.key).windowMs) answer.now := by
  obtain ⟨counts', decides⟩ := counts.split is
  rw [refused] at decides
  have full := of_decide_eq_false decides.symm
  have bound := counts'.atMost answer.key answer.now
  omega

theorem acceptedBetween_filter (answers : List (RateAnswer κ)) (key : κ) (after until_ : Int) :
    acceptedBetween (answers.filter (·.key = key)) key after until_ = acceptedBetween answers key after until_ := by
  rw [acceptedBetween, countP_filter]
  refine countP_congr fun answer _ => ?_
  simp only [Bool.and_eq_true, decide_eq_true_eq]
  tauto

theorem filter (counts : AnswersByCount limits answers) (key : κ) :
    AnswersByCount limits (answers.filter (·.key = key)) := by
  induction counts with
  | nil => exact .nil
  | @snoc answers answer counts before decides ih =>
    rw [filter_append]
    by_cases same : answer.key = key
    · rw [filter_singleton, decide_eq_true same]
      subst same
      refine .snoc ih (fun earlier member => before earlier (mem_of_mem_filter member)) ?_
      rw [acceptedBetween_filter]
      exact decides
    · rw [filter_singleton, decide_eq_false same]
      simpa using ih

theorem unique {others : List (RateAnswer κ)} (counts : AnswersByCount limits answers)
    (counts' : AnswersByCount limits others)
    (calls : answers.map (·.toRequestCall) = others.map (·.toRequestCall)) : answers = others := by
  induction counts generalizing others with
  | nil => exact (map_eq_nil_iff.mp calls.symm).symm
  | @snoc answers answer counts before decides ih =>
    cases counts' with
    | nil => exact absurd calls (by simp)
    | @snoc others other counts' before' decides' =>
      rw [map_append, map_append] at calls
      obtain ⟨front, last⟩ := append_inj' calls rfl
      have same := ih counts' front
      subst same
      have call : answer.toRequestCall = other.toRequestCall := singleton_inj.mp last
      obtain ⟨⟨key, now⟩, accepted⟩ := answer
      obtain ⟨⟨key', now'⟩, accepted'⟩ := other
      cases call
      rw [show accepted = accepted' from decides.trans decides'.symm]

end AnswersByCount

/-! ## The calls for one key alone -/

theorem setHits_single {hits : List Int} (own : ∀ entry ∈ windows, entry.1 = key) (small : windows.length ≤ 1) :
    setHits key hits windows = [(key, hits)] := by
  match windows, small with
  | [], _ => rfl
  | [entry], _ => rw [setHits, if_pos (own entry mem_cons_self)]

/-- Of one key there is nothing to clean up. -/
theorem RateState.sparing_single (limits : κ → RequestLimit) (own : ∀ entry ∈ s.windows, entry.1 = call.key)
    (small : s.windows.length ≤ 1) :
    s.sparing limits call = true ∧ (∀ entry ∈ (s.answer limits call).windows, entry.1 = call.key) ∧
      (s.answer limits call).windows.length ≤ 1 := by
  unfold RateState.sparing RateState.answer
  cases accepts : assertRequestRateLimit s.windows call.key (limits call.key).limit (limits call.key).windowMs
      call.now with
  | none => exact ⟨rfl, own, small⟩
  | some windows =>
    unfold assertRequestRateLimit at accepts
    dsimp only at accepts
    obtain ⟨-, is⟩ := Option.ite_none_left_eq_some.mp accepts
    have few : ¬ maximumTrackedKeys < 1 := by decide
    rw [setHits_single own small, length_singleton, if_neg few] at is
    cases is
    refine ⟨?_, ?_, Nat.le_refl 1⟩
    · refine all_eq_true.mpr fun entry member => ?_
      simp [own entry member]
    · intro entry member
      rw [mem_singleton.mp member]

theorem RateState.answers_answer (s : RateState κ) (call : RequestCall κ) :
    (s.answer limits call).answers.map (·.toRequestCall) = s.answers.map (·.toRequestCall) ++ [call] := by
  unfold RateState.answer
  split
  · rw [map_append]
    rfl
  · rw [map_append]
    rfl

theorem RateState.kept_alone (limits : κ → RequestLimit) {key : κ} {calls : List (RequestCall κ)} (own : ∀ call ∈ calls, call.key = key)
    (ordered : calls.Pairwise fun earlier later => earlier.now ≤ later.now) :
    (calls.foldl (RateState.answer limits) {}).Kept limits ∧
      (calls.foldl (RateState.answer limits) {}).answers.map (·.toRequestCall) = calls ∧
      (∀ entry ∈ (calls.foldl (RateState.answer limits) {}).windows, entry.1 = key) ∧
      (calls.foldl (RateState.answer limits) {}).windows.length ≤ 1 := by
  induction calls using reverseRecOn with
  | nil => exact ⟨⟨nodup_nil, .nil, fun _ _ _ => rfl⟩, rfl, nofun, Nat.zero_le 1⟩
  | append_singleton calls call ih =>
    obtain ⟨ordered', -, before⟩ := pairwise_append.mp ordered
    obtain ⟨kept, asked, entries, small⟩ := ih (fun call member => own call (mem_append_left _ member)) ordered'
    rw [foldl_append, foldl_cons, foldl_nil]
    generalize calls.foldl (RateState.answer limits) {} = s at kept asked entries small ⊢
    have its : call.key = key := own call (mem_append_right _ (mem_singleton_self _))
    have entries' : ∀ entry ∈ s.windows, entry.1 = call.key := fun entry member => (entries entry member).trans its.symm
    obtain ⟨sparing, mine, few⟩ := RateState.sparing_single limits entries' small
    have earlier : ∀ answer ∈ s.answers, answer.now ≤ call.now := by
      intro answer member
      have listed : answer.toRequestCall ∈ calls := by
        rw [← asked]
        exact mem_map_of_mem member
      exact before _ listed call (mem_singleton_self _)
    refine ⟨kept.answer earlier sparing, ?_, fun entry member => (mine entry member).trans its, few⟩
    rw [RateState.answers_answer, asked]

theorem AnswersByCount.ordered {answers : List (RateAnswer κ)} (counts : AnswersByCount limits answers) :
    answers.Pairwise fun earlier later => earlier.now ≤ later.now := by
  induction counts with
  | nil => exact .nil
  | @snoc answers answer counts before decides ih =>
    refine pairwise_append.mpr ⟨ih, pairwise_singleton .., fun earlier member later is => ?_⟩
    rw [mem_singleton.mp is]
    exact before earlier member

theorem RateState.Kept.alone (kept : s.Kept limits) (key : κ) : s.answers.filter (·.key = key) =
      (((s.answers.filter (·.key = key)).map (·.toRequestCall)).foldl (RateState.answer limits) {}).answers := by
  have counts := kept.counts.filter key
  have ordered : ((s.answers.filter (·.key = key)).map (·.toRequestCall)).Pairwise
      fun earlier later => earlier.now ≤ later.now := pairwise_map.mpr counts.ordered
  obtain ⟨kept', asked, -⟩ := @RateState.kept_alone κ _ limits key _ (fun call member => by
    obtain ⟨answer, listed, rfl⟩ := mem_map.mp member
    exact of_decide_eq_true (mem_filter.mp listed).2) ordered
  exact counts.unique kept'.counts asked.symm

/-! ## Every run -/

/-- As long as no call's clean-up drops a time that is still in its own key's window, the limits hold, and the keys
    don't affect each other. -/
theorem rate_limits (limits : κ → RequestLimit) (s : RateState κ)
    (reached : ((rateSystem limits).restrict fun s call => s.sparing limits call = true).Reachable s) :
    s.Limits limits := by
  have kept : s.Kept limits := by
    refine reached.invariant (fun s is => ?_) fun s call s' kept step => ?_
    · rw [show s = {} from is]
      exact ⟨nodup_nil, .nil, fun _ _ _ => rfl⟩
    · obtain ⟨before, is⟩ := Option.ite_none_right_eq_some.mp step.2
      cases is
      exact kept.answer before step.1
  exact ⟨kept.counts.atMost, fun earlier answer later is refused => kept.counts.refused is refused, kept.alone⟩

end

/-! ## A short window cleans up a long one -/

def claimKey : String := "account.claim:user@example.com"

/-- `users.ts:287` and `relay-join.server.ts:563` -/
def requestLimits (key : String) : RequestLimit := if key = claimKey then ⟨3, 600000⟩ else ⟨60, 60000⟩

def claimAt (now : Int) : RequestCall String := ⟨claimKey, now⟩

/-- Someone claims accounts three times, and is refused. -/
def claims : List (RequestCall String) := [claimAt 0, claimAt 1, claimAt 2, claimAt 3, ⟨"relay.join:192.0.2.1", 4⟩]

def refusedFourth (s : RateState String) : Bool :=
  s.answers.map (·.accepted) = [true, true, true, false, true]

theorem rate_limits_claims :
    (runAll (fun s call => if RateState.sparing requestLimits s call = true
      then RateState.next requestLimits s call else none) {} claims).any refusedFourth = true ∧
    ∀ s, runAll (fun s call => if RateState.sparing requestLimits s call = true
      then RateState.next requestLimits s call else none) {} claims = some s → s.Limits requestLimits := by
  refine ⟨by decide, fun s ran => ?_⟩
  exact rate_limits requestLimits s ⟨_, _, rfl, System.run_of_guardedRunAll ran⟩

/-- A Relay joins from one of as many addresses as someone likes to name. -/
def joinKey (address : Nat) : String := "relay.join:" ++ String.ofList (replicate address '1')

theorem joinKey_ne {m n : Nat} (different : m ≠ n) : joinKey m ≠ joinKey n := by
  intro same
  have lists := congrArg String.toList same
  simp only [joinKey, String.toList_append, String.toList_ofList, append_cancel_left_eq] at lists
  have lengths := congrArg length lists
  rw [length_replicate, length_replicate] at lengths
  exact different lengths

theorem joinKey_ne_claimKey (n : Nat) : joinKey n ≠ claimKey := by
  intro same
  have heads := congrArg (head? ∘ String.toList) same
  simp only [Function.comp_apply, joinKey, claimKey, String.toList_append] at heads
  cases heads

/-- The windows once as many addresses have been named, a minute after the claims. -/
def floodedWindows (n : Nat) : List (String × List Int) :=
  (claimKey, [0, 0, 0]) :: (range n).map fun address => (joinKey address, [60000])

theorem lookup_joins {n : Nat} {key : String} (new : ∀ address < n, key ≠ joinKey address) :
    ((range n).map fun address => (joinKey address, [(60000 : Int)])).lookup key = none := by
  rw [lookup_eq_none_iff]
  intro entry member
  obtain ⟨address, listed, rfl⟩ := mem_map.mp member
  exact bne_iff_ne.mpr (new address (mem_range.mp listed))

theorem setHits_new {key : String} {hits : List Int} {windows : List (String × List Int)}
    (new : ∀ entry ∈ windows, entry.1 ≠ key) : setHits key hits windows = windows ++ [(key, hits)] := by
  induction windows with
  | nil => rfl
  | cons entry rest ih =>
    rw [setHits, if_neg (new entry mem_cons_self), ih fun entry member => new entry (mem_cons_of_mem _ member)]
    rfl

theorem floodedWindows_succ (n : Nat) : hitsOf (floodedWindows n) (joinKey n) = [] ∧
      setHits (joinKey n) [60000] (floodedWindows n) = floodedWindows (n + 1) := by
  have fresh : ∀ address < n, joinKey n ≠ joinKey address := fun address below => joinKey_ne (Nat.ne_of_gt below)
  refine ⟨?_, ?_⟩
  · rw [hitsOf, floodedWindows, lookup_cons, beq_eq_false_iff_ne.mpr (joinKey_ne_claimKey n)]
    simp only [lookup_joins fresh, Option.getD_none]
  rw [setHits_new, floodedWindows, floodedWindows, range_succ, map_append]
  · rfl
  · intro entry member
    rcases mem_cons.mp member with rfl | later
    · exact (joinKey_ne_claimKey n).symm
    · obtain ⟨address, listed, rfl⟩ := mem_map.mp later
      exact (fresh address (mem_range.mp listed)).symm

/-- Times in the call's window are kept. -/
theorem sweepWindows_fresh {cutoff : Int} {size : Nat} {windows : List (String × List Int)}
    (fresh : ∀ entry ∈ windows, entry.2.all (· ≤ cutoff) = false) : sweepWindows cutoff size windows = windows := by
  induction windows generalizing size with
  | nil => rfl
  | cons entry rest ih =>
    rw [sweepWindows, fresh entry mem_cons_self]
    simp only [Bool.false_eq_true, if_false]
    rw [ih fun entry member => fresh entry (mem_cons_of_mem _ member), ite_self]

theorem requestLimits_joinKey (n : Nat) : requestLimits (joinKey n) = ⟨60, 60000⟩ := if_neg (joinKey_ne_claimKey n)

/-- What a call of an address finds and leaves. -/
theorem assertRequestRateLimit_join (n : Nat) : assertRequestRateLimit (floodedWindows n) (joinKey n) 60 60000 60000 =
      some (if maximumTrackedKeys < n + 2 then sweepWindows 0 (n + 2) (floodedWindows (n + 1))
        else floodedWindows (n + 1)) := by
  obtain ⟨none_, set⟩ := floodedWindows_succ n
  have size : (floodedWindows (n + 1)).length = n + 2 := by
    rw [floodedWindows, length_cons, length_map, length_range]
  unfold assertRequestRateLimit
  simp only [none_, filter_nil, length_nil, nil_append, set, size]
  rfl

theorem step_answer {limits : String → RequestLimit} {s : RateState String} (call : RequestCall String)
    (before : ∀ earlier ∈ s.answers, earlier.now ≤ call.now) :
    (rateSystem limits).step s call (s.answer limits call) := if_pos before

/-- The three claims are accepted, and as many addresses as the map has room for. -/
theorem flooded (n : Nat) (room : n + 1 ≤ maximumTrackedKeys) :
    ∃ s, (rateSystem requestLimits).Reachable s ∧ s.windows = floodedWindows n ∧
      (∀ answer ∈ s.answers, answer.now ≤ 60000) ∧ 3 ≤ acceptedSince s.answers claimKey (-1) := by
  induction n with
  | zero =>
    refine ⟨⟨floodedWindows 0, replicate 3 ⟨claimAt 0, true⟩⟩, ⟨{}, [claimAt 0, claimAt 0, claimAt 0], rfl, ?_⟩,
      rfl, by decide, by decide⟩
    exact System.run_of_runAll rfl
  | succ n ih =>
    obtain ⟨s, ⟨first, calls, init, run⟩, windows, times, accepted⟩ := ih (Nat.le_of_succ_le room)
    have answer : s.answer requestLimits ⟨joinKey n, 60000⟩ =
        { windows := floodedWindows (n + 1), answers := s.answers ++ [⟨⟨joinKey n, 60000⟩, true⟩] } := by
      have small : ¬ maximumTrackedKeys < n + 2 := Nat.not_lt.mpr room
      unfold RateState.answer
      simp only [requestLimits_joinKey, windows, assertRequestRateLimit_join, if_neg small]
    refine ⟨_, ⟨first, calls ++ [⟨joinKey n, 60000⟩], init, run.snoc (step_answer _ times)⟩, ?_, ?_, ?_⟩
    · rw [answer]
    · rw [answer]
      intro later member
      rcases mem_append.mp member with before | now
      · exact times later before
      · obtain rfl := mem_singleton.mp now
        exact Int.le_refl 60000
    · rw [answer, acceptedSince_append]
      exact Nat.le_add_right_of_le accepted

theorem rate_limit_forgets : ¬ ∀ (limits : String → RequestLimit) s, (rateSystem limits).Reachable s → s.Limits limits := by
  intro all
  obtain ⟨s, ⟨first, calls, init, run⟩, windows, times, accepted⟩ := flooded 9999 (by decide)
  -- the next address finds the map full, and cleans up the claims
  have swept : sweepWindows 0 10001 (floodedWindows 10000) =
      (range 10000).map fun address => (joinKey address, [60000]) := by
    rw [floodedWindows, sweepWindows, sweepWindows_fresh]
    · simp only [ite_self]
      rfl
    · intro entry member
      obtain ⟨address, -, rfl⟩ := mem_map.mp member
      rfl
  have join : s.answer requestLimits ⟨joinKey 9999, 60000⟩ =
      { windows := (range 10000).map fun address => (joinKey address, [60000])
        answers := s.answers ++ [⟨⟨joinKey 9999, 60000⟩, true⟩] } := by
    have large : maximumTrackedKeys < 9999 + 2 := by decide
    unfold RateState.answer
    simp only [requestLimits_joinKey, windows, assertRequestRateLimit_join, if_pos large, swept]
  have run' := run.snoc (step_answer ⟨joinKey 9999, 60000⟩ times)
  rw [join] at run'
  have times' : ∀ earlier ∈ s.answers ++ [(⟨⟨joinKey 9999, 60000⟩, true⟩ : RateAnswer String)],
      earlier.now ≤ (claimAt 60001).now := by
    intro earlier member
    rcases mem_append.mp member with before | now
    · exact Int.le_trans (times earlier before) (by decide)
    · rw [mem_singleton.mp now]
      decide
  have run'' := run'.snoc (step_answer (claimAt 60001) times')
  have limited := (all requestLimits _ ⟨first, _, init, run''⟩).atMost claimKey 60001
  have own : requestLimits (claimAt 60001).key = ⟨3, 600000⟩ := rfl
  have none_ : hitsOf ((range 10000).map fun address => (joinKey address, [(60000 : Int)])) (claimAt 60001).key
      = [] := by
    rw [hitsOf, claimAt, lookup_joins fun address _ => (joinKey_ne_claimKey address).symm]
    rfl
  have again : (RateState.answer requestLimits
      { windows := (range 10000).map fun address => (joinKey address, [60000])
        answers := s.answers ++ [⟨⟨joinKey 9999, 60000⟩, true⟩] } (claimAt 60001)).answers =
      s.answers ++ [⟨⟨joinKey 9999, 60000⟩, true⟩] ++ [⟨claimAt 60001, true⟩] := by
    unfold RateState.answer assertRequestRateLimit
    simp only [own, none_]
    rfl
  rw [again, acceptedBetween_append, acceptedBetween_append] at limited
  have all_ : acceptedSince s.answers claimKey (-1) ≤
      acceptedBetween s.answers claimKey (60001 - (requestLimits claimKey).windowMs) 60001 := by
    refine countP_mono_left fun answer member => ?_
    have early := times answer member
    have window : (requestLimits claimKey).windowMs = 600000 := rfl
    simp only [Bool.and_eq_true, decide_eq_true_eq, window]
    intro counted
    exact ⟨⟨counted.1, by omega⟩, by omega⟩
  have counted : (claimAt 60001).key = claimKey ∧ 60001 - (requestLimits claimKey).windowMs < (claimAt 60001).now ∧
      (claimAt 60001).now ≤ 60001 := by decide
  have three : (requestLimits claimKey).limit = 3 := rfl
  rw [if_neg fun joins => joinKey_ne_claimKey 9999 joins.2.1, if_pos ⟨rfl, counted⟩, three] at limited
  omega

end Kiln.Hearth
