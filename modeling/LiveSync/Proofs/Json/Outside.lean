import LiveSync.Json.Pointer
import LiveSync.Proofs.Json.Leaves
import LiveSync.Proofs.Json.Values
import Mathlib.Data.List.Basic

/-!
# What a change leaves alone

To say that a change of a value is local one would like to say that everything else
stays as it is. A value has no parts that could be listed beforehand, though: at
every level there may be an object, an array, or nothing to go into. What can be
listed is paths. Two values agree **outside** some places if every path that leads
to none of them, and into none of them, finds the same in both
(`Json.AgreeOutside`), where of an array or object on the way only counts that it
is one.

For settled values this is all there is to say: if they agree outside of no place,
they are equal (`Json.AgreeOutside.eq`). And it goes along with the structure of a
change: what a function changes of a value, it changes below a path if it is
applied there (`Json.AgreeOutside.adjust`).
-/

namespace LiveSync.Json

variable {v w u : Json} {places places' : List (List String)} {path : List String}

/-! ### Steps into an array -/

theorem digitChar_of_isDigit {c : Char} (h : c.isDigit = true) :
    (c.toNat - '0'.toNat).digitChar = c := by
  have hall : ∀ d < 10, Nat.digitChar d = Char.ofNat (d + 48) := by decide
  have hlow : 48 ≤ c.toNat := (Char.isDigit_iff_toNat.mp h).1
  have hhigh : c.toNat ≤ 57 := (Char.isDigit_iff_toNat.mp h).2
  rw [show '0'.toNat = 48 from rfl, hall _ (by omega), Nat.sub_add_cancel hlow, Char.ofNat_toNat]

/-- Digits of which the first is no zero are those that are written for the number
they denote. -/
theorem ofNat_of_toNat? {cs : List Char} {i : Nat} (h : Decimal.toNat? cs = some i)
    (hzero : cs.head? ≠ some '0') : Decimal.ofNat i = cs := by
  rw [Decimal.toNat?, Option.ite_none_right_eq_some] at h
  obtain ⟨⟨hne, hall⟩, hi⟩ := h
  obtain rfl := Option.some.inj hi
  clear hi
  induction cs using List.reverseRecOn with
  | nil => exact absurd rfl hne
  | append_singleton ds c ih =>
    rw [List.all_append, Bool.and_eq_true] at hall
    obtain ⟨hds, hc⟩ := hall
    have hc : c.isDigit = true := by simpa using hc
    have hdigit := digitChar_of_isDigit hc
    have hlt : c.toNat - '0'.toNat < 10 := by
      have hhigh : c.toNat ≤ 57 := (Char.isDigit_iff_toNat.mp hc).2
      show c.toNat - 48 < 10
      omega
    rw [Nat.ofDigitChars_append, Nat.ofDigitChars_cons, Nat.ofDigitChars_nil]
    by_cases hnil : ds = []
    · subst hnil
      rw [Nat.ofDigitChars_nil, Nat.mul_zero, Nat.zero_add, Decimal.ofNat,
        Nat.toDigits_of_lt_base hlt, hdigit]
      rfl
    · have hhead : ds.head? ≠ some '0' := by
        rwa [List.head?_append_of_ne_nil _ hnil] at hzero
      have hvalue := ih hhead hnil hds
      -- were the digits before the last one to denote zero, the first would be one
      have hpos : Nat.ofDigitChars 10 ds 0 ≠ 0 := by
        intro hz
        rw [hz] at hvalue
        exact hhead (hvalue ▸ rfl)
      rw [Decimal.ofNat, Nat.toDigits_of_base_le (by decide) (by omega),
        Nat.mul_add_div (by decide), Nat.div_eq_of_lt hlt, Nat.add_zero, Nat.mul_add_mod,
        Nat.mod_eq_of_lt hlt, hdigit]
      exact congrArg (· ++ [c]) hvalue

/-- **The places of an array are written in one way only.** -/
theorem place?_eq_some_iff {step : String} {i : Nat} :
    place? step = some i ↔ step = Decimal.natText i := by
  constructor
  · intro h
    suffices hlist : Decimal.ofNat i = step.toList by
      rw [Decimal.natText, hlist, String.ofList_toList]
    rw [place?.eq_def] at h
    split at h
    · rename_i hzero
      rw [hzero, ← Option.some.inj h]
      rfl
    · cases h
    · rename_i hne
      refine ofNat_of_toNat? h fun hhead => ?_
      obtain ⟨rest, hrest⟩ := List.head?_eq_some_iff.mp hhead
      exact hne rest hrest
  · rintro rfl
    rw [place?.eq_def, Decimal.natText, String.toList_ofList]
    rcases Nat.eq_zero_or_pos i with rfl | hpos
    · rfl
    · split
      · rename_i hzero
        exact absurd (congrArg List.head? hzero) (Numeral.head?_ofNat hpos)
      · rename_i hzero
        exact absurd (congrArg List.head? hzero) (Numeral.head?_ofNat hpos)
      · exact Decimal.toNat?_ofNat i

/-! ### Reading a changed value -/

theorem at?_append (v : Json) (path rest : List String) :
    v.at? (path ++ rest) = (v.at? path).bind (at? rest) := by
  induction path generalizing v with
  | nil => rfl
  | cons step path ih =>
    show (child? step v).bind _ = ((child? step v).bind _).bind _
    rw [Option.bind_assoc]
    exact congrArg _ (funext ih)

/-- **At the path** stands the changed value. -/
theorem at?_adjust (path : List String) (f : Json → Json) (v : Json) :
    (v.adjust path f).at? path = (v.at? path).map f := by
  induction path generalizing v with
  | nil => rfl
  | cons step path ih =>
    show (child? step (adjustChild step (adjust path f) v)).bind _ = ((child? step v).bind _).map f
    rw [child?_adjustChild_self]
    cases child? step v with
    | none => rfl
    | some u => exact ih u

/-- A step to another place finds what it found before. -/
theorem child?_adjustChild_of_ne {step other : String} (h : other ≠ step) (f : Json → Json)
    (v : Json) : child? other (adjustChild step f v) = child? other v := by
  cases v with
  | obj members => exact (member?_adjustMember step other f members).trans (if_neg h)
  | arr items =>
    cases hstep : place? step with
    | none => simp [child?, adjustChild, hstep]
    | some i =>
      cases hother : place? other with
      | none => simp [child?, adjustChild, hstep, hother]
      | some j =>
        have hne : i ≠ j := by
          rintro rfl
          exact h ((place?_eq_some_iff.mp hother).trans (place?_eq_some_iff.mp hstep).symm)
        simp [child?, adjustChild, hstep, hother, List.getElem?_modify, hne]
  | _ => rfl

/-- What stands at a path apart from the changed one stays. -/
theorem at?_adjust_of_apart {place : List String} (h : ¬ place <+: path) (h' : ¬ path <+: place)
    (f : Json → Json) (v : Json) : (v.adjust place f).at? path = v.at? path := by
  induction place generalizing path v with
  | nil => exact absurd List.nil_prefix h
  | cons step place ih =>
    cases path with
    | nil => exact absurd List.nil_prefix h'
    | cons next path =>
      show (child? next (adjustChild step (adjust place f) v)).bind (at? path)
        = (child? next v).bind (at? path)
      by_cases hnext : next = step
      · subst hnext
        rw [child?_adjustChild_self]
        cases child? next v with
        | none => rfl
        | some u =>
          exact ih (fun hp => h (List.cons_prefix_cons.mpr ⟨rfl, hp⟩))
            (fun hp => h' (List.cons_prefix_cons.mpr ⟨rfl, hp⟩)) u
      · rw [child?_adjustChild_of_ne hnext]

theorem adjustMember_eq_self {key : String} {f : Json → Json} {members : List (String × Json)}
    (h : ∀ u, member? key members = some u → f u = u) : adjustMember key f members = members := by
  induction members with
  | nil => rfl
  | cons m members ih =>
    obtain ⟨k, u⟩ := m
    rw [member?] at h
    rw [adjustMember]
    split
    · rename_i hk
      rw [h u (if_pos hk)]
    · rename_i hk
      rw [ih fun u hu => h u ((if_neg hk).trans hu)]

theorem adjustChild_eq_self {step : String} {f : Json → Json}
    (h : ∀ u, child? step v = some u → f u = u) : adjustChild step f v = v := by
  cases v with
  | obj members => exact congrArg obj (adjustMember_eq_self h)
  | arr items =>
    cases hstep : place? step with
    | none => simp only [adjustChild, hstep]
    | some i =>
      have hi : ∀ u, items[i]? = some u → f u = u := by
        simpa only [child?, hstep, Option.bind_some] using h
      simp only [adjustChild, hstep]
      refine congrArg arr (List.ext_getElem? fun j => ?_)
      rw [List.getElem?_modify]
      by_cases hij : i = j
      · subst hij
        cases hu : items[i]? with
        | none => rfl
        | some u => simp [hi u hu]
      · simp [hij]
  | _ => rfl

/-- **Nothing changes** if the change would leave alone what stands there. -/
theorem adjust_eq_self {f : Json → Json} (h : ∀ u, v.at? path = some u → f u = u) :
    v.adjust path f = v := by
  induction path generalizing v with
  | nil => exact h v rfl
  | cons step path ih =>
    refine adjustChild_eq_self fun u hu => ih fun x hx => h x ?_
    show (child? step v).bind (at? path) = some x
    rw [hu]
    exact hx

theorem adjustMember_adjustMember (key : String) (f g : Json → Json)
    (members : List (String × Json)) :
    adjustMember key g (adjustMember key f members) = adjustMember key (g ∘ f) members := by
  induction members with
  | nil => rfl
  | cons m members ih =>
    obtain ⟨k, u⟩ := m
    rw [adjustMember, adjustMember]
    split
    · rename_i hk
      rw [adjustMember, if_pos hk]
      rfl
    · rename_i hk
      rw [adjustMember, if_neg hk, ih]

theorem adjustChild_adjustChild (step : String) (f g : Json → Json) (v : Json) :
    adjustChild step g (adjustChild step f v) = adjustChild step (g ∘ f) v := by
  cases v with
  | obj members => exact congrArg obj (adjustMember_adjustMember step f g members)
  | arr items =>
    cases hstep : place? step with
    | none => simp [adjustChild, hstep]
    | some i => simp [adjustChild, hstep, List.modify_modify_eq]
  | _ => rfl

/-- **Two changes at one path** are one. -/
theorem adjust_adjust (path : List String) (f g : Json → Json) (v : Json) :
    (v.adjust path f).adjust path g = v.adjust path (g ∘ f) := by
  induction path generalizing v with
  | nil => rfl
  | cons step path ih =>
    show adjustChild step (adjust path g) (adjustChild step (adjust path f) v)
      = adjustChild step (adjust path (g ∘ f)) v
    rw [adjustChild_adjustChild]
    exact congrArg (adjustChild step · v) (funext ih)

/-! ### Agreement outside some places -/

/-- **What a value is**, apart from what is inside it. -/
inductive Node where
  | null
  | bool (b : Bool)
  | int (n : Int)
  | float (x : Binary64)
  | str (s : String)
  | arr (length : Nat)
  | obj
deriving DecidableEq, Repr

/-- What a value is. -/
def node : Json → Node
  | .null => .null
  | .bool b => .bool b
  | .int n => .int n
  | .float x => .float x
  | .str s => .str s
  | .arr items => .arr items.length
  | .obj _ => .obj

/-- Values that are the same, apart from what is inside them, are equal unless something
is inside them. -/
theorem eq_or_of_node_eq (h : v.node = w.node) :
    v = w ∨ (∃ items items', v = .arr items ∧ w = .arr items')
      ∨ ∃ members members', v = .obj members ∧ w = .obj members' := by
  cases v <;> cases w <;> simp_all [node]

/-- **Two values agree outside some places**: on every path that leads to none of the
places and into none of them there is the same in both, or nothing in either. -/
def AgreeOutside (places : List (List String)) (v w : Json) : Prop :=
  ∀ path, (∀ place ∈ places, ¬ place <+: path) → (v.at? path).map node = (w.at? path).map node

theorem agreeOutside_refl (places : List (List String)) (v : Json) : AgreeOutside places v v :=
  fun _ _ => rfl

theorem AgreeOutside.symm (h : AgreeOutside places v w) : AgreeOutside places w v :=
  fun path hpath => (h path hpath).symm

theorem AgreeOutside.mono (h : AgreeOutside places v w) (hsub : places ⊆ places') :
    AgreeOutside places' v w :=
  fun path hpath => h path fun place hplace => hpath place (hsub hplace)

theorem AgreeOutside.trans (h : AgreeOutside places v w) (h' : AgreeOutside places w u) :
    AgreeOutside places v u :=
  fun path hpath => (h path hpath).trans (h' path hpath)

/-- What is the same at the places, and outside of them, is the same everywhere. -/
theorem AgreeOutside.of_places (h : AgreeOutside places v w)
    (hplaces : ∀ place ∈ places, v.at? place = w.at? place) : AgreeOutside [] v w := by
  intro path _
  by_cases hpath : ∃ place ∈ places, place <+: path
  · obtain ⟨place, hplace, rest, rfl⟩ := hpath
    rw [at?_append, at?_append, hplaces place hplace]
  · exact h path fun place hplace hprefix => hpath ⟨place, hplace, hprefix⟩

/-- Outside of the whole there is nothing. -/
theorem agreeOutside_whole (v w : Json) : AgreeOutside [[]] v w :=
  fun _ hpath => absurd List.nil_prefix (hpath [] (List.mem_singleton_self _))

theorem node_adjustChild (step : String) (f : Json → Json) (v : Json) :
    (adjustChild step f v).node = v.node := by
  cases v with
  | arr items =>
    cases hstep : place? step with
    | none => simp only [adjustChild, hstep]
    | some i =>
      simp only [adjustChild, hstep]
      exact congrArg Node.arr (List.length_modify f items i)
  | _ => rfl

/-- **A change at a path changes what it changes, below that path**, and nothing else. -/
theorem AgreeOutside.adjust {f : Json → Json} (h : ∀ v, AgreeOutside places v (f v))
    (path : List String) (v : Json) :
    AgreeOutside (places.map (path ++ ·)) v (v.adjust path f) := by
  induction path generalizing v with
  | nil =>
    rw [show places.map ([] ++ ·) = places from List.map_id places]
    exact h v
  | cons step path ih =>
    intro other hother
    cases other with
    | nil => exact congrArg some (node_adjustChild step _ v).symm
    | cons next other =>
      show ((child? next v).bind (at? other)).map node
        = ((child? next (adjustChild step (Json.adjust path f) v)).bind (at? other)).map node
      by_cases hnext : next = step
      · rw [hnext, child?_adjustChild_self]
        cases child? step v with
        | none => rfl
        | some u =>
          refine ih u other fun place hplace hprefix => ?_
          obtain ⟨rest, hrest, rfl⟩ := List.mem_map.mp hplace
          refine hother _ (List.mem_map_of_mem hrest) ?_
          rw [hnext, List.cons_append, List.cons_prefix_cons]
          exact ⟨rfl, hprefix⟩
      · rw [child?_adjustChild_of_ne hnext]

/-- **A change at one place.** -/
theorem agreeOutside_adjust (path : List String) (f : Json → Json) (v : Json) :
    AgreeOutside [path] v (v.adjust path f) := by
  have h := AgreeOutside.adjust (fun v => agreeOutside_whole v (f v)) path v
  rwa [List.map_singleton, List.append_nil] at h

/-- What is read of a value at a place outside, and not of what is inside it, is read
of the other one too. -/
theorem AgreeOutside.bind_eq {α : Type} (h : AgreeOutside places v w)
    (hpath : ∀ place ∈ places, ¬ place <+: path) {read : Json → Option α}
    (hread : ∀ v w : Json, v.node = w.node → read v = read w) :
    (v.at? path).bind read = (w.at? path).bind read := by
  have hnode := h path hpath
  generalize v.at? path = a at hnode ⊢
  generalize w.at? path = b at hnode ⊢
  cases a with
  | none => rw [Option.map_eq_none_iff.mp hnode.symm]
  | some a =>
    obtain ⟨b, rfl, hb⟩ := Option.map_eq_some_iff.mp hnode.symm
    exact hread a b hb.symm

/-! ### Settled values -/

theorem settle_arr_eq_self_iff {items : List Json} :
    (arr items).settle = arr items ↔ ∀ v ∈ items, v.settle = v := by
  rw [settle, settleItems_eq_map, arr.injEq]
  exact ⟨fun h v hv => List.map_inj_left.mp (h.trans (List.map_id items).symm) v hv,
    fun h => (List.map_congr_left h).trans (List.map_id items)⟩

theorem settle_obj_eq_self_iff {ms : List (String × Json)} :
    (obj ms).settle = obj ms ↔ Ordered ms ∧ ∀ m ∈ ms, m.2.settle = m.2 := by
  rw [settle, obj.injEq]
  constructor
  · intro h
    refine ⟨h ▸ ordered_orderMembers _, fun m hm => ?_⟩
    rw [← h] at hm
    have hmem := mem_orderMembers hm
    rw [settleMembers_eq_map] at hmem
    obtain ⟨n, -, rfl⟩ := List.mem_map.mp hmem
    exact settle_settle n.2
  · rintro ⟨hordered, hms⟩
    rw [settleMembers_eq_self hms, hordered.orderMembers_eq]

theorem Ordered.adjustMember {ms : List (String × Json)} (h : Ordered ms) (key : String)
    (f : Json → Json) : Ordered (adjustMember key f ms) := by
  have hnames : (Json.adjustMember key f ms).map Prod.fst = ms.map Prod.fst := by
    induction ms with
    | nil => rfl
    | cons m ms ih =>
      rw [Json.adjustMember]
      split
      · rfl
      · exact congrArg (m.1 :: ·) (ih h.of_cons)
  have hpairs := List.pairwise_map.mpr h
  rw [← hnames] at hpairs
  exact List.pairwise_map.mp hpairs

theorem mem_adjustMember {key : String} {f : Json → Json} {ms : List (String × Json)}
    {m : String × Json} (h : m ∈ adjustMember key f ms) : ∃ n ∈ ms, m.2 = n.2 ∨ m.2 = f n.2 := by
  induction ms with
  | nil => cases h
  | cons n ms ih =>
    rw [adjustMember] at h
    split at h
    · rcases List.mem_cons.mp h with rfl | h
      · exact ⟨n, List.mem_cons_self, .inr rfl⟩
      · exact ⟨m, List.mem_cons_of_mem _ h, .inl rfl⟩
    · rcases List.mem_cons.mp h with rfl | h
      · exact ⟨_, List.mem_cons_self, .inl rfl⟩
      · obtain ⟨n, hn, hm⟩ := ih h
        exact ⟨n, List.mem_cons_of_mem _ hn, hm⟩

theorem settle_adjustChild {f : Json → Json} (hf : ∀ u : Json, u.settle = u → (f u).settle = f u)
    (step : String) (hv : v.settle = v) : (adjustChild step f v).settle = adjustChild step f v := by
  cases v with
  | obj ms =>
    obtain ⟨hordered, hms⟩ := settle_obj_eq_self_iff.mp hv
    refine settle_obj_eq_self_iff.mpr ⟨hordered.adjustMember step f, fun m hm => ?_⟩
    obtain ⟨n, hn, hm | hm⟩ := mem_adjustMember hm <;> rw [hm]
    · exact hms n hn
    · exact hf _ (hms n hn)
  | arr items =>
    have hitems := settle_arr_eq_self_iff.mp hv
    cases hstep : place? step with
    | none => simpa only [adjustChild, hstep] using hv
    | some i =>
      simp only [adjustChild, hstep]
      refine settle_arr_eq_self_iff.mpr fun u hu => ?_
      obtain ⟨j, hj⟩ := List.getElem?_of_mem hu
      rw [List.getElem?_modify] at hj
      obtain ⟨x, hx, rfl⟩ := Option.map_eq_some_iff.mp hj
      have hx := hitems x (List.mem_of_getElem? hx)
      split
      · exact hf x hx
      · exact hx
  | _ => exact hv

/-- **A settled value stays settled** if what is changed in it does. -/
theorem settle_adjust {f : Json → Json} (hf : ∀ u : Json, u.settle = u → (f u).settle = f u)
    (path : List String) (hv : v.settle = v) : (v.adjust path f).settle = v.adjust path f := by
  induction path generalizing v with
  | nil => exact hf v hv
  | cons step path ih => exact settle_adjustChild (fun _ => ih) step hv

theorem mem_of_member? {key : String} {ms : List (String × Json)}
    (h : member? key ms = some v) : (key, v) ∈ ms := by
  induction ms with
  | nil => cases h
  | cons m ms ih =>
    rw [member?] at h
    split at h
    · rename_i hkey
      cases h
      exact hkey ▸ List.mem_cons_self
    · exact List.mem_cons_of_mem _ (ih h)

/-- One step inside, agreement is agreement there. -/
theorem AgreeOutside.child (h : AgreeOutside [] v w) (step : String) :
    Option.Rel (AgreeOutside []) (child? step v) (child? step w) := by
  have hstep (path : List String) :
      ((child? step v).bind (at? path)).map node = ((child? step w).bind (at? path)).map node :=
    h (step :: path) nofun
  generalize child? step v = a at hstep ⊢
  generalize child? step w = b at hstep ⊢
  cases a <;> cases b
  · exact .none
  · exact absurd (hstep []) nofun
  · exact absurd (hstep []) nofun
  · exact .some fun path _ => hstep path

/-- **Settled values that agree outside of no place are equal.** -/
theorem AgreeOutside.eq (h : AgreeOutside [] v w) (hv : v.settle = v) (hw : w.settle = w) :
    v = w := by
  have hstep {a b : Option Json} (hab : Option.Rel (AgreeOutside []) a b)
      (heq : ∀ x y, a = some x → b = some y → AgreeOutside [] x y → x = y) : a = b := by
    cases hab with
    | none => rfl
    | some hxy => exact congrArg some (heq _ _ rfl rfl hxy)
  induction v using Json.induction generalizing w with
  | null | bool | int | float | str =>
    have hnode := Option.some.inj (h [] nofun)
    cases w <;> cases hnode
    rfl
  | arr items ih =>
    have hnode := Option.some.inj (h [] nofun)
    cases w with
    | arr items' =>
      refine congrArg arr (List.ext_getElem? fun i => ?_)
      have hchild := h.child (Decimal.natText i)
      have hplace : place? (Decimal.natText i) = some i := place?_eq_some_iff.mpr rfl
      simp only [child?, hplace, Option.bind_some] at hchild
      refine hstep hchild fun x y hx hy hxy => ?_
      exact ih x (List.mem_of_getElem? hx) hxy
        (settle_arr_eq_self_iff.mp hv x (List.mem_of_getElem? hx))
        (settle_arr_eq_self_iff.mp hw y (List.mem_of_getElem? hy))
    | _ => cases hnode
  | obj ms ih =>
    have hnode := Option.some.inj (h [] nofun)
    cases w with
    | obj ns =>
      obtain ⟨hms, hmembers⟩ := settle_obj_eq_self_iff.mp hv
      obtain ⟨hns, hmembers'⟩ := settle_obj_eq_self_iff.mp hw
      refine congrArg obj (hms.ext hns fun key => ?_)
      refine hstep (h.child key) fun x y hx hy hxy => ?_
      exact ih (key, x) (mem_of_member? hx) hxy (hmembers _ (mem_of_member? hx))
        (hmembers' _ (mem_of_member? hy))
    | _ => cases hnode

end LiveSync.Json
