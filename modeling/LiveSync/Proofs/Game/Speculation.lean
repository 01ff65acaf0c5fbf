import LiveSync.Game.Action
import LiveSync.Proofs.Json.Outside

/-!
# A guess is local

What an action will presumably lead to is guessed from whatever payload there is,
and that may be any value: what ought to be an object may be an array, a string, or
missing. All the same the guess changes next to nothing (`Mutation.speculate_local`):
a bid, a trump, or three arrays, each at its place and only if it is there.

The turn is read from four other places, so that no guess can move it. This is what
makes guesses harmless: the server's answer may be late or never come, and until
then nobody is told that it is somebody's turn.
-/

namespace LiveSync

namespace Game

/-- **A payload shows the same turn** as another one. -/
structure SameTurn (before after : Json) : Prop where
  phase : phase? after = phase? before
  toAct : toAct? after = toAct? before
  viewerSeat : viewerSeat? after = viewerSeat? before
  hasViewer : hasViewer after = hasViewer before
  isTurnOf : ∀ seat, isTurnOf after seat = isTurnOf before seat

/-- The places that the turn is read from. -/
def turnPlaces : List (List String) :=
  [["game", "phase", "phase"], ["game", "phase", "data", "to_act"], ["viewer", "seat"], ["viewer"]]

/-- Whether there is a viewer is seen at the viewer's place, since no array has one. -/
theorem hasViewer_eq (payload : Json) :
    hasViewer payload = ((payload.at? ["viewer"]).map Json.node).any fun x => x ≠ .null := by
  cases payload with
  | obj members =>
    have hat : Json.at? ["viewer"] (.obj members) = Json.member? "viewer" members := by
      show (Json.member? "viewer" members).bind some = _
      exact Option.bind_fun_some _
    have hget : Json.get? "viewer" (.obj members) = Json.member? "viewer" members := rfl
    rw [hat, hasViewer, hget]
    cases Json.member? "viewer" members with
    | none => rfl
    | some v => cases v <;> rfl
  | _ => rfl

/-- **The turn is seen at its places** and nowhere else. -/
theorem sameTurn_of_agreeOutside {places : List (List String)} {before after : Json}
    (h : before.AgreeOutside places after)
    (hturn : ∀ path ∈ turnPlaces, ∀ place ∈ places, ¬ place <+: path) : SameTurn before after := by
  have hstr (v w : Json) (heq : v.node = w.node) : v.str? = w.str? := by
    obtain rfl | ⟨_, _, rfl, rfl⟩ | ⟨_, _, rfl, rfl⟩ := Json.eq_or_of_node_eq heq <;> rfl
  have huint (v w : Json) (heq : v.node = w.node) : v.uint8? = w.uint8? := by
    obtain rfl | ⟨_, _, rfl, rfl⟩ | ⟨_, _, rfl, rfl⟩ := Json.eq_or_of_node_eq heq <;> rfl
  have hphase : phase? after = phase? before := by
    unfold phase?
    rw [h.bind_eq (hturn _ (by simp [turnPlaces])) hstr]
  have htoAct : toAct? after = toAct? before :=
    (h.bind_eq (hturn _ (by simp [turnPlaces])) huint).symm
  have hseat : viewerSeat? after = viewerSeat? before :=
    (h.bind_eq (hturn _ (by simp [turnPlaces])) huint).symm
  refine ⟨hphase, htoAct, hseat, ?_, fun seat => ?_⟩
  · rw [hasViewer_eq, hasViewer_eq, h ["viewer"] (hturn _ (by simp [turnPlaces]))]
  · unfold isTurnOf
    rw [hphase, htoAct]

end Game

namespace Mutation

/-! ### The places of a guess -/

/-- Where the data of a phase has a field. -/
def dataPlace (field : String) : List String := ["game", "phase", "data", field]

/-- Where the bid of a seat is. -/
def bidPlace (seat : Seat) : List String := dataPlace "bids" ++ [Decimal.natText seat.toNat]

/-- Where the trump of a round is. -/
def trumpPlace : List String := dataPlace "round" ++ ["trump"]

/-- Where the viewer's cards are. -/
def handPlace : List String := ["viewer", "hand"]

/-- **The places that an action changes**, at most. -/
def places (action : Action) (payload : Json) : List (List String) :=
  match action with
  | .bid _ => (Game.viewerSeat? payload).toList.map bidPlace
  | .trump _ => [trumpPlace]
  | .play _ => [handPlace, dataPlace "playable", dataPlace "current_trick"]
  | .ready _ => []

/-- Changes the items of an array, and nothing else. -/
def onItems (f : List Json → List Json) : Json → Json
  | .arr items => .arr (f items)
  | v => v

/-- Puts a card that is played at the end of the trick, if the seat is known that it is
played from. -/
def onTrick (seat : Option Seat) (card : String) : Json → Json :=
  match seat with
  | some seat => onItems (· ++ [.arr [Json.ofUInt8 seat, .str card]])
  | none => id

/-- **What an action does at its places.** A bid is written over what is there for the
seat of the viewer, and a trump into a round that is an object; if there is no such
thing, nothing changes at all. A card that is played is taken out of two arrays, and
with the viewer's seat it is put at the end of a third one. -/
def Effect (action : Action) (before after : Json) : Prop :=
  match action with
  | .bid n =>
    (∃ seat old, Game.viewerSeat? before = some seat ∧ before.at? (bidPlace seat) = some old
        ∧ after.at? (bidPlace seat) = some (Json.ofUInt8 n))
      ∨ (∀ seat, Game.viewerSeat? before = some seat → before.at? (bidPlace seat) = none)
        ∧ after = before
  | .trump suit =>
    (∃ members, before.at? (dataPlace "round") = some (.obj members)
        ∧ after.at? trumpPlace = some (.str suit))
      ∨ (∀ members, before.at? (dataPlace "round") ≠ some (.obj members)) ∧ after = before
  | .play card =>
    after.at? handPlace = (before.at? handPlace).map (onItems (·.filter (· ≠ .str card)))
      ∧ after.at? (dataPlace "playable")
        = (before.at? (dataPlace "playable")).map (onItems (·.filter (· ≠ .str card)))
      ∧ after.at? (dataPlace "current_trick")
        = (before.at? (dataPlace "current_trick")).map (onTrick (Game.viewerSeat? before) card)
  | .ready _ => after = before

/-- No guess is made where the turn is read. -/
theorem not_prefix_turnPlaces (action : Action) (payload : Json) :
    ∀ path ∈ Game.turnPlaces, ∀ place ∈ places action payload, ¬ place <+: path := by
  cases action with
  | bid n =>
    intro path hpath place hplace
    obtain ⟨seat, -, rfl⟩ := List.mem_map.mp hplace
    show ¬ "game" :: "phase" :: "data" :: "bids" :: [Decimal.natText seat.toNat] <+: path
    simp only [Game.turnPlaces, List.mem_cons, List.not_mem_nil, or_false] at hpath
    rcases hpath with rfl | rfl | rfl | rfl <;> simp [List.cons_prefix_cons]
  | trump suit =>
    show ∀ path ∈ Game.turnPlaces, ∀ place ∈ [trumpPlace], ¬ place <+: path
    decide
  | play card =>
    show ∀ path ∈ Game.turnPlaces,
      ∀ place ∈ [handPlace, dataPlace "playable", dataPlace "current_trick"], ¬ place <+: path
    decide
  | ready isReady => nofun

/-! ### The closed form of a guess -/

variable {payload : Json} {seat : Seat}

theorem speculate_bid_of_some (n : UInt8) (h : Game.viewerSeat? payload = some seat) :
    speculate (.bid n) payload = payload.adjust (bidPlace seat) fun _ => Json.ofUInt8 n := by
  simp only [speculate, h]
  rfl

theorem speculate_bid_of_none (n : UInt8) (h : Game.viewerSeat? payload = none) :
    speculate (.bid n) payload = payload := by
  simp only [speculate, h]

/-- **A card that is played** is taken out of two arrays and put into a third one. -/
theorem speculate_play (card : String) (payload : Json) :
    speculate (.play card) payload
      = ((payload.adjust handPlace (onItems (·.filter (· ≠ .str card)))).adjust
          (dataPlace "playable") (onItems (·.filter (· ≠ .str card)))).adjust
          (dataPlace "current_trick") (onTrick (Game.viewerSeat? payload) card) := by
  have hwithout : withoutCard card = onItems (·.filter (· ≠ .str card)) := by
    funext v
    cases v <;> rfl
  cases hseat : Game.viewerSeat? payload with
  | none =>
    rw [Json.adjust_eq_self (f := onTrick none card) fun _ _ => rfl]
    simp only [speculate, hseat, hwithout]
    rfl
  | some seat =>
    have hplayed : withPlayed seat card = onTrick (some seat) card := by
      funext v
      cases v <;> rfl
    simp only [speculate, hseat, hwithout, hplayed]
    rfl

/-! ### What a guess changes -/

theorem agreeOutside_withTrump (suit : String) (v : Json) :
    v.AgreeOutside [["trump"]] (withTrump suit v) := by
  intro path hpath
  cases v with
  | obj members =>
    cases path with
    | nil => rfl
    | cons step path =>
      have hstep : "trump" ≠ step := by
        rintro rfl
        exact hpath _ (List.mem_singleton_self _) (List.cons_prefix_cons.mpr ⟨rfl, List.nil_prefix⟩)
      show ((Json.member? step members).bind _).map _
        = ((Json.member? step (Json.insertMember "trump" (.str suit) members)).bind _).map _
      rw [Json.member?_insertMember, if_neg hstep]
  | _ => rfl

/-- **A guess changes nothing outside its places.** -/
theorem agreeOutside_speculate (action : Action) (payload : Json) :
    payload.AgreeOutside (places action payload) (speculate action payload) := by
  cases action with
  | bid n =>
    cases hseat : Game.viewerSeat? payload with
    | none =>
      rw [speculate_bid_of_none n hseat]
      exact Json.agreeOutside_refl _ _
    | some seat =>
      rw [speculate_bid_of_some n hseat, places, hseat]
      exact Json.agreeOutside_adjust (bidPlace seat) _ payload
  | trump suit =>
    exact Json.AgreeOutside.adjust (agreeOutside_withTrump suit) (dataPlace "round") payload
  | play card =>
    have hone {path : List String} (hmem : path ∈ places (.play card) payload)
        (f : Json → Json) (v : Json) :
        v.AgreeOutside (places (.play card) payload) (v.adjust path f) :=
      (Json.agreeOutside_adjust path f v).mono fun _ h => List.mem_singleton.mp h ▸ hmem
    rw [speculate_play]
    exact ((hone (by simp [places]) _ payload).trans (hone (by simp [places]) _ _)).trans
      (hone (by simp [places]) _ _)
  | ready isReady => exact Json.agreeOutside_refl _ _

/-- **A guess does at its places what the action does.** -/
theorem effect_speculate (action : Action) (payload : Json) :
    Effect action payload (speculate action payload) := by
  cases action with
  | bid n =>
    cases hseat : Game.viewerSeat? payload with
    | none => exact .inr ⟨fun seat h => (Option.some_ne_none seat (h.symm.trans hseat)).elim,
        speculate_bid_of_none n hseat⟩
    | some seat =>
      have hbid := speculate_bid_of_some n hseat
      cases hold : payload.at? (bidPlace seat) with
      | none =>
        refine .inr ⟨fun other h => ?_, ?_⟩
        · rw [← Option.some.inj (hseat.symm.trans h), hold]
        · rw [hbid, Json.adjust_eq_self fun u hu => ?_]
          cases hold.symm.trans hu
      | some old =>
        refine .inl ⟨seat, old, hseat, hold, ?_⟩
        rw [hbid, Json.at?_adjust, hold]
        rfl
  | trump suit =>
    show _ ∨ _ ∧ payload.adjust (dataPlace "round") (withTrump suit) = payload
    by_cases h : ∃ members, payload.at? (dataPlace "round") = some (.obj members)
    · obtain ⟨members, hround⟩ := h
      refine .inl ⟨members, hround, ?_⟩
      show (payload.adjust (dataPlace "round") (withTrump suit)).at?
        (dataPlace "round" ++ ["trump"]) = _
      rw [Json.at?_append, Json.at?_adjust, hround]
      show (Json.member? "trump" (Json.insertMember "trump" (.str suit) members)).bind _ = _
      rw [Json.member?_insertMember, if_pos rfl]
      rfl
    · rw [not_exists] at h
      refine .inr ⟨h, Json.adjust_eq_self fun u hu => ?_⟩
      cases u with
      | obj members => exact absurd hu (h members)
      | _ => rfl
  | play card =>
    rw [speculate_play]
    refine ⟨?_, ?_, ?_⟩
    · rw [Json.at?_adjust_of_apart (by decide) (by decide),
        Json.at?_adjust_of_apart (by decide) (by decide), Json.at?_adjust]
    · rw [Json.at?_adjust_of_apart (by decide) (by decide), Json.at?_adjust,
        Json.at?_adjust_of_apart (by decide) (by decide)]
    · rw [Json.at?_adjust, Json.at?_adjust_of_apart (by decide) (by decide),
        Json.at?_adjust_of_apart (by decide) (by decide)]
  | ready isReady => exact rfl

/-- **A guess does not move the turn.** -/
theorem sameTurn_speculate (action : Action) (payload : Json) :
    Game.SameTurn payload (speculate action payload) :=
  Game.sameTurn_of_agreeOutside (agreeOutside_speculate action payload)
    (not_prefix_turnPlaces action payload)

/-! ### Guessing twice -/

theorem withTrump_comp (suit : String) : withTrump suit ∘ withTrump suit = withTrump suit := by
  funext v
  cases v with
  | obj members => exact congrArg Json.obj (Json.insertMember_insertMember _ _ _ members)
  | _ => rfl

/-- **A guess that is made twice is made once**, unless a card is played. -/
theorem speculate_speculate {action : Action} (hplay : ∀ card, action ≠ .play card)
    (payload : Json) : speculate action (speculate action payload) = speculate action payload := by
  cases action with
  | bid n =>
    have hsame := (sameTurn_speculate (.bid n) payload).viewerSeat
    cases hseat : Game.viewerSeat? payload with
    | none => rw [speculate_bid_of_none n hseat, speculate_bid_of_none n hseat]
    | some seat =>
      rw [speculate_bid_of_some n (hsame.trans hseat), speculate_bid_of_some n hseat,
        Json.adjust_adjust]
      rfl
  | trump suit =>
    show ((payload.adjust (dataPlace "round") (withTrump suit)).adjust (dataPlace "round")
      (withTrump suit)) = _
    rw [Json.adjust_adjust, withTrump_comp]
    rfl
  | play card => exact absurd rfl (hplay card)
  | ready isReady => rfl

/-! ### A guess is determined by what is said of it -/

/-- What an action does at its places does not depend on how it is done. -/
theorem Effect.at?_eq {action : Action} {before after after' : Json}
    (h : Effect action before after) (h' : Effect action before after') :
    ∀ place ∈ places action before, after.at? place = after'.at? place := by
  intro place hplace
  cases action with
  | bid n =>
    obtain ⟨seat, hseat, rfl⟩ := List.mem_map.mp hplace
    have hseat := Option.mem_toList.mp hseat
    rcases h with ⟨s, old, hs, hold, hbid⟩ | ⟨hnone, rfl⟩ <;>
      rcases h' with ⟨s', old', hs', hold', hbid'⟩ | ⟨hnone', rfl⟩
    · obtain rfl := Option.some.inj (hs.symm.trans hseat)
      obtain rfl := Option.some.inj (hs'.symm.trans hseat)
      rw [hbid, hbid']
    · cases hold.symm.trans (hnone' s hs)
    · cases hold'.symm.trans (hnone s' hs')
    · rfl
  | trump suit =>
    obtain rfl := List.mem_singleton.mp hplace
    rcases h with ⟨members, hround, htrump⟩ | ⟨hnone, rfl⟩ <;>
      rcases h' with ⟨members', hround', htrump'⟩ | ⟨hnone', rfl⟩
    · rw [htrump, htrump']
    · exact absurd hround (hnone' members)
    · exact absurd hround' (hnone members')
    · rfl
  | play card =>
    obtain ⟨hhand, hplayable, htrick⟩ := h
    obtain ⟨hhand', hplayable', htrick'⟩ := h'
    simp only [places, List.mem_cons, List.not_mem_nil, or_false] at hplace
    rcases hplace with rfl | rfl | rfl
    · rw [hhand, hhand']
    · rw [hplayable, hplayable']
    · rw [htrick, htrick']
  | ready isReady => cases hplace

theorem settle_onItems {f : List Json → List Json}
    (hf : ∀ items : List Json, (∀ v ∈ items, v.settle = v) → ∀ v ∈ f items, v.settle = v) (v : Json)
    (h : v.settle = v) : (onItems f v).settle = onItems f v := by
  cases v with
  | arr items =>
    exact Json.settle_arr_eq_self_iff.mpr (hf items (Json.settle_arr_eq_self_iff.mp h))
  | _ => exact h

theorem settle_withTrump (suit : String) (v : Json) (h : v.settle = v) :
    (withTrump suit v).settle = withTrump suit v := by
  cases v with
  | obj members =>
    obtain ⟨hordered, hmembers⟩ := Json.settle_obj_eq_self_iff.mp h
    refine Json.settle_obj_eq_self_iff.mpr ⟨hordered.insertMember _ _, fun m hm => ?_⟩
    rcases Json.mem_insertMember hm with rfl | hm
    · rfl
    · exact hmembers m hm
  | _ => exact h

/-- **A guess on a settled payload is settled.** -/
theorem settle_speculate (action : Action) (h : payload.settle = payload) :
    (speculate action payload).settle = speculate action payload := by
  cases action with
  | bid n =>
    cases hseat : Game.viewerSeat? payload with
    | none => rwa [speculate_bid_of_none n hseat]
    | some seat =>
      rw [speculate_bid_of_some n hseat]
      exact Json.settle_adjust (fun _ _ => rfl) _ h
  | trump suit => exact Json.settle_adjust (settle_withTrump suit) _ h
  | play card =>
    have hwithout := settle_onItems (f := fun items => items.filter (· ≠ .str card))
      fun items hitems v hv => hitems v (List.mem_of_mem_filter hv)
    have htrick : ∀ v : Json, v.settle = v →
        (onTrick (Game.viewerSeat? payload) card v).settle
          = onTrick (Game.viewerSeat? payload) card v := by
      cases Game.viewerSeat? payload with
      | none => exact fun _ hv => hv
      | some seat =>
        refine settle_onItems fun items hitems v hv => ?_
        rcases List.mem_append.mp hv with hv | hv
        · exact hitems v hv
        · rw [List.mem_singleton.mp hv]
          rfl
    rw [speculate_play]
    exact Json.settle_adjust htrick _
      (Json.settle_adjust hwithout _ (Json.settle_adjust hwithout _ h))
  | ready isReady => exact h

/-- **What is said of a guess determines it**, among settled payloads. -/
theorem eq_speculate_iff {action : Action} {after : Json} (h : payload.settle = payload)
    (hafter : after.settle = after) :
    after = speculate action payload
      ↔ payload.AgreeOutside (places action payload) after ∧ Effect action payload after := by
  constructor
  · rintro rfl
    exact ⟨agreeOutside_speculate action payload, effect_speculate action payload⟩
  · rintro ⟨houtside, heffect⟩
    have hplaces := heffect.at?_eq (effect_speculate action payload)
    have hsame := houtside.symm.trans (agreeOutside_speculate action payload)
    exact (hsame.of_places hplaces).eq hafter (settle_speculate action h)

/-- **A guess is local.** Whatever the payload is, an action changes nothing of it outside
its places, and there it does what is to be expected of it. So the turn is what it was.
Unless a card is played, to guess the same again changes nothing more. -/
theorem speculate_local (action : Action) (payload : Json) :
    payload.AgreeOutside (places action payload) (speculate action payload)
      ∧ Effect action payload (speculate action payload)
      ∧ Game.SameTurn payload (speculate action payload)
      ∧ ((∀ card, action ≠ .play card) →
        speculate action (speculate action payload) = speculate action payload) :=
  ⟨agreeOutside_speculate action payload, effect_speculate action payload,
    sameTurn_speculate action payload, fun hplay => speculate_speculate hplay payload⟩

end Mutation

end LiveSync
