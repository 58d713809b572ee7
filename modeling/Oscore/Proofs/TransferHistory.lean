/-
This file says what the store of blockwise transfers answers after any history.

It answers as a finite map from exchanges to transfers, so what is asked about one
exchange leaves the others as they are. What is kept for an exchange follows from
the transfer that was put there last, if it was not taken away or dropped since,
and from the edits since: the blocks that were pushed stand behind its body, in
their order, and the last of them says whether the body is complete.
-/

import Mathlib.Data.Finmap
import Oscore.Blockwise

namespace Oscore.Blockwise

/-! ### Edits -/

/-- What is done to a transfer in place. -/
inductive Edit
  /-- Appends a block; `more` says whether others follow. -/
  | push (block : Bytes) (more : Bool)
  /-- Changes the protected response that is being sent. -/
  | respond (outgoing : Option Bytes)

/-- A transfer after an edit. -/
def Edit.apply (transfer : Transfer) : Edit → Transfer
  | push block more => transfer.push block more
  | respond outgoing => { transfer with outgoing }

/-- The block that an edit pushes, and whether others follow. -/
def Edit.block? : Edit → Option (Bytes × Bool)
  | push block more => some (block, more)
  | respond _ => none

/-- The response that an edit sets. -/
def Edit.outgoing? : Edit → Option (Option Bytes)
  | push _ _ => none
  | respond outgoing => some outgoing

/-- A transfer after some edits. -/
def Transfer.edited (transfer : Transfer) (edits : List Edit) : Transfer :=
  edits.foldl Edit.apply transfer

/-- The progress after some blocks were pushed. -/
def Progress.pushed (progress : Progress) (blocks : List (Bytes × Bool)) : Progress :=
  blocks.foldl (fun progress block => progress.push block.1 block.2) progress

/-- Blocks stand behind the body in their order and are counted. -/
theorem Progress.pushed_eq (progress : Progress) (blocks : List (Bytes × Bool)) :
    ∃ complete, progress.pushed blocks = { progress with
      body := progress.body ++ (blocks.map Prod.fst).flatten
      number := progress.number + blocks.length
      complete } := by
  induction blocks generalizing progress with
  | nil => exact ⟨progress.complete, by rw [List.map_nil, List.flatten_nil, List.append_nil]; rfl⟩
  | cons block rest inductionHypothesis =>
    obtain ⟨complete, equal⟩ := inductionHypothesis (progress.push block.1 block.2)
    refine ⟨complete, equal.trans ?_⟩
    rw [List.map_cons, List.flatten_cons, List.length_cons, ← List.append_assoc,
      Nat.add_comm rest.length, ← Nat.add_assoc]
    rfl

/-- The last block says whether the body is complete. -/
theorem Progress.pushed_concat (progress : Progress) (front : List (Bytes × Bool)) (block : Bytes)
    (more : Bool) :
    progress.pushed (front ++ [(block, more)]) = { progress with
      body := progress.body ++ ((front ++ [(block, more)]).map Prod.fst).flatten
      number := progress.number + (front ++ [(block, more)]).length
      complete := !more } := by
  obtain ⟨complete, equal⟩ := progress.pushed_eq front
  have last : progress.pushed (front ++ [(block, more)]) =
      (progress.pushed front).push block more :=
    List.foldl_append
  rw [last, equal, List.map_append, List.flatten_append, ← List.append_assoc, List.length_append,
    ← Nat.add_assoc]
  simp only [push, List.map_cons, List.map_nil, List.flatten_cons, List.flatten_nil,
    List.append_nil, List.length_singleton]

/-- Edits of the response and pushed blocks do not meet. -/
theorem Transfer.edited_eq (transfer : Transfer) (edits : List Edit) :
    transfer.edited edits = {
      progress := if edits.filterMap Edit.block? = [] then transfer.progress
        else some ((transfer.progress.getD {}).pushed (edits.filterMap Edit.block?))
      outgoing := (edits.filterMap Edit.outgoing?).getLast?.getD transfer.outgoing } := by
  induction edits generalizing transfer with
  | nil => rfl
  | cons edit rest inductionHypothesis =>
    have step : transfer.edited (edit :: rest) = (edit.apply transfer).edited rest := rfl
    rw [step, inductionHypothesis]
    cases edit with
    | push block more =>
      have blocks : (Edit.push block more :: rest).filterMap Edit.block? =
          (block, more) :: rest.filterMap Edit.block? := rfl
      have outgoing : (Edit.push block more :: rest).filterMap Edit.outgoing? =
          rest.filterMap Edit.outgoing? := rfl
      rw [blocks, outgoing, if_neg (List.cons_ne_nil _ _)]
      cases rest.filterMap Edit.block? <;> rfl
    | respond other =>
      have blocks : (Edit.respond other :: rest).filterMap Edit.block? =
          rest.filterMap Edit.block? := rfl
      have outgoing : (Edit.respond other :: rest).filterMap Edit.outgoing? =
          other :: rest.filterMap Edit.outgoing? := rfl
      rw [blocks, outgoing, List.getLast?_cons]
      rfl

/-! ### Requests -/

/-- What is asked of a store. -/
inductive Request
  | insert (exchange : Exchange) (transfer : Transfer)
  | update (exchange : Exchange) (edits : List Edit)
  | remove (exchange : Exchange)
  | get (exchange : Exchange)
  | clear
  | size

/-- What a store answers. -/
inductive Answer
  /-- What was kept for the exchange. -/
  | kept (transfer : Option Transfer)
  | count (number : Nat)
  | done
  deriving DecidableEq

/-- A finite map from exchanges to transfers. -/
abbrev TransferMap : Type := Finmap fun _ : Exchange => Transfer

namespace Request

/-- Asks a store: what it answers, and the store after that. -/
def run (store : Store) : Request → Answer × Store
  | insert exchange transfer => Prod.map .kept id (store.insert exchange transfer)
  | update exchange edits =>
    (.done, store.update exchange fun transfer => transfer.edited edits)
  | remove exchange => Prod.map .kept id (store.remove exchange)
  | get exchange => (.kept (store.get? exchange), store)
  | clear => (.done, store.clear)
  | size => (.count store.size, store)

/-- What a store answers to a request. -/
def answer (store : Store) (request : Request) : Answer := (request.run store).1

/-- The store after a request. -/
def next (store : Store) (request : Request) : Store := (request.run store).2

/-- What a finite map answers to a request. -/
def answerMap (map : TransferMap) : Request → Answer
  | insert exchange _ | remove exchange | get exchange => .kept (map.lookup exchange)
  | update _ _ | clear => .done
  | size => .count map.keys.card

/-- The finite map after a request. -/
def nextMap (map : TransferMap) : Request → TransferMap
  | insert exchange transfer => map.insert exchange transfer
  | update exchange edits => map.insert exchange (((map.lookup exchange).getD {}).edited edits)
  | remove exchange => map.erase exchange
  | get _ | size => map
  | clear => ∅

/-- The exchange that a request is about; the others are about none or all. -/
def concerns (exchange : Exchange) : Request → Bool
  | insert other _ | update other _ | remove other | get other => other = exchange
  | clear => true
  | size => false

/-- What a request puts in the place of whatever was kept for an exchange. -/
def settled? (exchange : Exchange) : Request → Option (Option Transfer)
  | insert other transfer => if other = exchange then some (some transfer) else none
  | remove other => if other = exchange then some none else none
  | clear => some none
  | _ => none

/-- The edits that a request makes of what is kept for an exchange. -/
def edits? (exchange : Exchange) : Request → Option (List Edit)
  | update other edits => if other = exchange then some edits else none
  | _ => none

end Request

/-- What a store answers to one request after another. -/
def Store.answers (store : Store) : List Request → List Answer
  | [] => []
  | request :: rest => request.answer store :: (request.next store).answers rest

/-- The store after some requests. -/
def Store.after (store : Store) (requests : List Request) : Store :=
  requests.foldl Request.next store

/-- What a finite map answers to one request after another. -/
def answersOfMap (map : TransferMap) : List Request → List Answer
  | [] => []
  | request :: rest => request.answerMap map :: answersOfMap (request.nextMap map) rest

/-! ### The store as a finite map -/

namespace Store

variable {store : Store} {map : TransferMap} {exchange : Exchange}

/-- A store that keeps what a finite map has, with one entry for each exchange. -/
structure Represents (store : Store) (map : TransferMap) : Prop where
  distinct : (store.entries.map Prod.fst).Nodup
  get?_eq : ∀ exchange, store.get? exchange = map.lookup exchange

theorem represents_empty : ({} : Store).Represents ∅ :=
  ⟨List.nodup_nil, fun exchange => by rw [Finmap.lookup_empty]; rfl⟩

theorem isSome_get? (store : Store) (exchange : Exchange) :
    (store.get? exchange).isSome ↔ exchange ∈ store.entries.map Prod.fst := by
  rw [get?, List.lookup_isSome_iff, List.mem_map]
  exact exists_congr fun entry => and_congr_right fun _ => beq_iff_eq.trans eq_comm

/-- The entries are counted once for each exchange. -/
theorem Represents.size_eq (represents : store.Represents map) : store.size = map.keys.card := by
  have keys : map.keys = (store.entries.map Prod.fst).toFinset := by
    ext exchange
    rw [Finmap.mem_keys, List.mem_toFinset, ← isSome_get?, represents.get?_eq, Finmap.lookup_isSome]
  rw [keys, List.toFinset_card_of_nodup represents.distinct, List.length_map, size]

theorem Represents.without (represents : store.Represents map) (exchange : Exchange) :
    (store.without exchange).Represents (map.erase exchange) := by
  refine ⟨?_, fun other => ?_⟩
  · exact (List.filter_sublist.map Prod.fst).nodup represents.distinct
  · by_cases same : other = exchange
    · subst same
      rw [get?_without_self, Finmap.lookup_erase]
    · rw [get?_without_of_ne same, Finmap.lookup_erase_ne same]
      exact represents.get?_eq other

theorem Represents.put (represents : store.Represents map) (exchange : Exchange)
    (transfer : Transfer) :
    (store.put exchange transfer).Represents (map.insert exchange transfer) := by
  refine ⟨?_, fun other => ?_⟩
  · have absent : exchange ∉ (store.without exchange).entries.map Prod.fst := by
      rw [← isSome_get?, get?_without_self]
      exact Bool.false_ne_true
    exact List.nodup_cons.mpr ⟨absent, (represents.without exchange).distinct⟩
  · by_cases same : other = exchange
    · subst same
      rw [get?_put_self, Finmap.lookup_insert]
    · rw [get?_put_of_ne same, Finmap.lookup_insert_of_ne _ same]
      exact represents.get?_eq other

theorem Represents.next (represents : store.Represents map) (request : Request) :
    (request.next store).Represents (request.nextMap map) := by
  cases request with
  | insert exchange transfer => exact represents.put exchange transfer
  | update exchange edits =>
    rw [Request.nextMap, ← represents.get?_eq]
    exact represents.put exchange _
  | remove exchange => exact represents.without exchange
  | get exchange => exact represents
  | clear => exact represents_empty
  | size => exact represents

theorem Represents.answer_eq (represents : store.Represents map) (request : Request) :
    request.answer store = request.answerMap map := by
  cases request with
  | insert exchange transfer => exact congrArg Answer.kept (represents.get?_eq exchange)
  | update exchange edits => rfl
  | remove exchange => exact congrArg Answer.kept (represents.get?_eq exchange)
  | get exchange => exact congrArg Answer.kept (represents.get?_eq exchange)
  | clear => rfl
  | size => exact congrArg Answer.count represents.size_eq

theorem Represents.answers_eq (represents : store.Represents map) (requests : List Request) :
    store.answers requests = answersOfMap map requests := by
  induction requests generalizing store map with
  | nil => rfl
  | cons request rest inductionHypothesis =>
    rw [answers, answersOfMap, represents.answer_eq, inductionHypothesis (represents.next request)]

/-! ### One exchange by itself -/

/-- A request about another exchange leaves what is kept for this one. -/
theorem get?_next_of_not_concerns {request : Request} (other : request.concerns exchange = false)
    (store : Store) : (request.next store).get? exchange = store.get? exchange := by
  cases request with
  | insert asked transfer =>
    exact get?_put_of_ne (Ne.symm (of_decide_eq_false other)) store transfer
  | update asked edits => exact get?_put_of_ne (Ne.symm (of_decide_eq_false other)) store _
  | remove asked => exact get?_without_of_ne (Ne.symm (of_decide_eq_false other)) store
  | get asked => rfl
  | clear => cases other
  | size => rfl

/-- What becomes of an exchange depends on nothing else that is kept. -/
theorem get?_next_congr {first second : Store} (same : first.get? exchange = second.get? exchange)
    (request : Request) :
    (request.next first).get? exchange = (request.next second).get? exchange := by
  cases about : request.concerns exchange with
  | false => rw [get?_next_of_not_concerns about, get?_next_of_not_concerns about, same]
  | true =>
    cases request with
    | insert asked transfer =>
      cases of_decide_eq_true about
      exact (get?_put_self first exchange transfer).trans
        (get?_put_self second exchange transfer).symm
    | update asked edits =>
      cases of_decide_eq_true about
      show (first.put exchange _).get? exchange = (second.put exchange _).get? exchange
      rw [get?_put_self, get?_put_self, same]
    | remove asked =>
      cases of_decide_eq_true about
      exact (get?_without_self first exchange).trans (get?_without_self second exchange).symm
    | get asked => exact same
    | clear => rfl
    | size => cases about

/-- What is kept for an exchange is what the requests about it alone leave. -/
theorem get?_after_filter {first second : Store} (same : first.get? exchange = second.get? exchange)
    (requests : List Request) :
    (first.after requests).get? exchange =
      (second.after (requests.filter (Request.concerns exchange))).get? exchange := by
  induction requests generalizing first second with
  | nil => exact same
  | cons request rest inductionHypothesis =>
    cases about : request.concerns exchange with
    | false =>
      rw [List.filter_cons_of_neg (by rw [about]; exact Bool.false_ne_true)]
      exact inductionHypothesis ((get?_next_of_not_concerns about first).trans same)
    | true =>
      rw [List.filter_cons_of_pos about]
      exact inductionHypothesis (get?_next_congr same request)

/-! ### What was settled and what was edited since -/

theorem get?_next_of_settled {request : Request} {base : Option Transfer}
    (settled : request.settled? exchange = some base) (store : Store) :
    (request.next store).get? exchange = base := by
  cases request with
  | insert asked transfer =>
    obtain ⟨rfl, same⟩ := Option.ite_none_right_eq_some.mp settled
    exact (get?_put_self store asked transfer).trans (Option.some.inj same)
  | remove asked =>
    obtain ⟨rfl, same⟩ := Option.ite_none_right_eq_some.mp settled
    exact (get?_without_self store asked).trans (Option.some.inj same)
  | clear => exact Option.some.inj settled
  | update asked edits => cases settled
  | get asked => cases settled
  | size => cases settled

theorem get?_next_of_edits {request : Request} {edits : List Edit}
    (edited : request.edits? exchange = some edits) (store : Store) :
    (request.next store).get? exchange = some (((store.get? exchange).getD {}).edited edits) := by
  cases request with
  | update asked others =>
    obtain ⟨rfl, same⟩ := Option.ite_none_right_eq_some.mp edited
    cases same
    exact get?_put_self store asked _
  | _ => cases edited

theorem get?_next_of_neither {request : Request} (unsettled : request.settled? exchange = none)
    (unedited : request.edits? exchange = none) (store : Store) :
    (request.next store).get? exchange = store.get? exchange := by
  have different {asked : Exchange} {Value : Type} {value : Value}
      (none : (if asked = exchange then some value else none) = none) : exchange ≠ asked := by
    rintro rfl
    rw [if_pos rfl] at none
    cases none
  cases request with
  | insert asked transfer => exact get?_put_of_ne (different unsettled) store transfer
  | update asked edits => exact get?_put_of_ne (different unedited) store _
  | remove asked => exact get?_without_of_ne (different unsettled) store
  | get asked => rfl
  | clear => cases unsettled
  | size => rfl

/-- What is left of a transfer, if there is one, after some updates. -/
def grown (base : Option Transfer) : List (List Edit) → Option Transfer
  | [] => base
  | edits :: rest => grown (some ((base.getD {}).edited edits)) rest

/-- What is kept for an exchange while nothing is settled for it. -/
theorem get?_after_of_unsettled {requests : List Request}
    (unsettled : ∀ request ∈ requests, request.settled? exchange = none) (store : Store) :
    (store.after requests).get? exchange =
      grown (store.get? exchange) (requests.filterMap (Request.edits? exchange)) := by
  induction requests generalizing store with
  | nil => rfl
  | cons request rest inductionHypothesis =>
    obtain ⟨first, others⟩ := List.forall_mem_cons.mp unsettled
    have step := inductionHypothesis others (request.next store)
    cases edited : request.edits? exchange with
    | none =>
      rw [get?_next_of_neither first edited] at step
      rw [List.filterMap_cons_none edited]
      exact step
    | some edits =>
      rw [get?_next_of_edits edited] at step
      rw [List.filterMap_cons_some edited]
      exact step

/-- The requests since what is kept for an exchange was settled last, and what it was settled to:
nothing, if it never was. -/
def Since (exchange : Exchange) (requests : List Request) (base : Option Transfer)
    (recent : List Request) : Prop :=
  (base = none ∧ requests = recent ∨ ∃ earlier request, requests = earlier ++ request :: recent ∧
    request.settled? exchange = some base) ∧
  ∀ request ∈ recent, request.settled? exchange = none

theorem exists_since (exchange : Exchange) (requests : List Request) :
    ∃ base recent, Since exchange requests base recent := by
  induction requests with
  | nil => exact ⟨none, [], Or.inl ⟨rfl, rfl⟩, List.forall_mem_nil _⟩
  | cons request rest inductionHypothesis =>
    obtain ⟨base, recent, ⟨rfl, rfl⟩ | ⟨earlier, last, rfl, settled⟩, unsettled⟩ :=
      inductionHypothesis
    · cases first : request.settled? exchange with
      | none => exact ⟨none, _, Or.inl ⟨rfl, rfl⟩, List.forall_mem_cons.mpr ⟨first, unsettled⟩⟩
      | some base => exact ⟨base, _, Or.inr ⟨[], request, rfl, first⟩, unsettled⟩
    · exact ⟨base, recent, Or.inr ⟨request :: earlier, last, rfl, settled⟩, unsettled⟩

/-- What is kept for an exchange is what it was settled to with the updates since. -/
theorem Since.get?_eq {requests recent : List Request} {base : Option Transfer}
    (since : Since exchange requests base recent) :
    (({} : Store).after requests).get? exchange =
      grown base (recent.filterMap (Request.edits? exchange)) := by
  obtain ⟨⟨rfl, rfl⟩ | ⟨earlier, last, rfl, settled⟩, unsettled⟩ := since
  · exact get?_after_of_unsettled unsettled {}
  · rw [← get?_next_of_settled settled (({} : Store).after earlier),
      ← get?_after_of_unsettled unsettled, after, List.foldl_append]
    rfl

/-! ### What is kept -/

/-- An update after the others makes its edits after theirs. -/
theorem grown_cons (base : Option Transfer) (edits : List Edit) (updates : List (List Edit)) :
    grown base (edits :: updates) = some ((base.getD {}).edited (edits :: updates).flatten) := by
  induction updates generalizing base edits with
  | nil =>
    rw [List.flatten_cons, List.flatten_nil, List.append_nil]
    rfl
  | cons next rest inductionHypothesis =>
    have whole : (edits :: next :: rest).flatten = edits ++ (next :: rest).flatten := rfl
    rw [grown, inductionHypothesis, whole, Transfer.edited, Transfer.edited, Transfer.edited,
      List.foldl_append]
    rfl

/-- What is kept for an exchange, by what it was settled to and the updates since: something, unless
it was settled to nothing and not updated; of that, the response that was set last; and the body
with the blocks that were pushed behind it, whose number was advanced by theirs, and which is
complete when no others follow the last. -/
structure Continues (base : Option Transfer) (updates : List (List Edit)) (kept : Option Transfer) :
    Prop where
  eq_none_iff : kept = none ↔ base = none ∧ updates = []
  outgoing_eq : ∀ transfer ∈ kept, transfer.outgoing =
    (updates.flatten.filterMap Edit.outgoing?).getLast?.getD (base.bind Transfer.outgoing)
  unpushed : ∀ transfer ∈ kept, updates.flatten.filterMap Edit.block? = [] →
    transfer.progress = base.bind Transfer.progress
  pushed : ∀ transfer ∈ kept, ∀ blocks front block more,
    blocks = updates.flatten.filterMap Edit.block? → blocks = front ++ [(block, more)] →
      let start : Progress := (base.bind Transfer.progress).getD {}
      transfer.progress = some { start with
        body := start.body ++ (blocks.map Prod.fst).flatten
        number := start.number + blocks.length
        complete := !more }

theorem continues_grown (base : Option Transfer) (updates : List (List Edit)) :
    Continues base updates (grown base updates) := by
  cases updates with
  | nil =>
    refine ⟨(and_iff_left rfl).symm, ?_, ?_, ?_⟩
    · rintro transfer ⟨⟩
      rfl
    · rintro transfer ⟨⟩ -
      rfl
    · rintro transfer - blocks front block more rfl last
      exact absurd last.symm (List.append_ne_nil_of_right_ne_nil front (List.cons_ne_nil _ _))
  | cons edits updates =>
    have outgoing : (base.getD {}).outgoing = base.bind Transfer.outgoing := by cases base <;> rfl
    have progress : (base.getD {}).progress = base.bind Transfer.progress := by cases base <;> rfl
    rw [grown_cons, Transfer.edited_eq, outgoing, progress]
    have never : ¬(base = none ∧ edits :: updates = []) := fun both => List.cons_ne_nil _ _ both.2
    refine ⟨iff_of_false (Option.some_ne_none _) never, ?_, ?_, ?_⟩
    · rintro transfer ⟨⟩
      rfl
    · rintro transfer ⟨⟩ unpushed
      exact if_pos unpushed
    · rintro transfer ⟨⟩ blocks front block more rfl last
      rw [last]
      dsimp only
      rw [if_neg (List.append_ne_nil_of_right_ne_nil front (List.cons_ne_nil _ _)),
        Progress.pushed_concat]

/-- A new store answers every list of requests as a finite map from exchanges to transfers. What it
keeps for an exchange is what the requests about this exchange alone leave: what was settled last
for it, and the edits since. -/
theorem answers_eq_map (requests : List Request) :
    ({} : Store).answers requests = answersOfMap ∅ requests ∧
    ∀ exchange,
      (({} : Store).after requests).get? exchange =
          (({} : Store).after (requests.filter (Request.concerns exchange))).get? exchange ∧
        ∃ base recent, Since exchange requests base recent ∧
          Continues base (recent.filterMap (Request.edits? exchange))
            ((({} : Store).after requests).get? exchange) := by
  refine ⟨represents_empty.answers_eq requests, fun exchange => ?_⟩
  refine ⟨get?_after_filter rfl requests, ?_⟩
  obtain ⟨base, recent, since⟩ := exists_since exchange requests
  refine ⟨base, recent, since, ?_⟩
  rw [since.get?_eq]
  exact continues_grown base _

/-- Two transfers that differ in their direction only, of which one is put anew midway. -/
example :
    let request : Exchange :=
      { token := [7], peer := .version4 [192, 0, 2, 1] 5683, response := false }
    let response : Exchange := { request with response := true }
    ({} : Store).answers [
      .update response [.respond (some [9])], .update request [.push [1] true],
      .update response [.push [2, 3] true, .push [4] false],
      .insert request { progress := some { number := 5, body := [6] } },
      .update request [.push [7] true],
      .get request, .remove response, .size] = [
        .done, .done, .done, .kept (some { progress := some { number := 1, body := [1] } }), .done,
        .kept (some { progress := some { number := 6, body := [6, 7] } }),
        .kept (some {
          progress := some { number := 2, complete := true, body := [2, 3, 4] }
          outgoing := some [9] }),
        .count 1] := by
  decide

end Store

end Oscore.Blockwise
