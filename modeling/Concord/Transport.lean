import Mathlib.Data.List.Nodup
import Concord.Lib.FirstMatch
import Concord.Io
import Concord.Auth.Placement

/-!
# Concord.Transport

Placing credentials in a request (`materialize_authentication` of
`concord_core/src/transport.rs`).

`fromStr` is `HeaderValue::from_str` of the `http` crate and `encode` the
standard engine of the `base64` crate; nothing is assumed of either.  Every
slot is turned into one write, to a header or to the query, and writes to
different targets do not disturb each other.
-/

namespace Concord

open FirstMatch

variable {β : Type*}

/-! ## materialization -/

/-- A `reqwest::Request`. -/
structure Message (β : Type*) where
  method : Method
  url : Url
  headers : HeaderMap
  timeout : Option Nat
  body : TerminalBody β

/-- What is written for a slot. -/
inductive AuthWrite where
  | header (name : HeaderName) (value : HeaderValue)
  | query (key secret : String)
  deriving DecidableEq, Repr

def Message.write (message : Message β) : AuthWrite → Message β
  | .header name value => { message with headers := message.headers.insert name value }
  | .query key secret => { message with url := message.url.appendPair key secret }

section materialization

variable (fromStr : String → Option HeaderValue) (encode : String → String)

/-- A header with a value that has to be valid. -/
def headerWrite (name : HeaderName) (value message : String) : Except AuthError AuthWrite :=
  match fromStr value with
  | none => .error (AuthError.new .unsupportedScheme message)
  | some value => .ok (.header name value)

/-- The arms of the match on placement and material. -/
def authWrite (slot : PlannedAuthSlot) (material : AuthTransportMaterial) :
    Except AuthError AuthWrite :=
  match slot.placement, material with
  | .bearer, .secret _ secret =>
    headerWrite fromStr HeaderName.authorization ("Bearer " ++ secret)
      "invalid bearer header value"
  | .header name, .secret _ secret =>
    headerWrite fromStr name secret "invalid auth header value"
  | .query key, .secret _ secret => .ok (.query key secret)
  | .basic, .basic _ username password =>
    headerWrite fromStr HeaderName.authorization
      ("Basic " ++ encode (username ++ ":" ++ password)) "invalid basic header value"
  | _, _ =>
    .error (AuthError.new .unsupportedScheme
      ("credential material does not match auth placement for `" ++ slot.usageId ++ "`"))

/-- `by_slot`: of several materials for one slot the last counts. -/
def materialFor (materials : List AuthTransportMaterial) (id : AuthSlotId) :
    Option AuthTransportMaterial :=
  materials.reverse.find? (·.slotId = id)

def missingMaterial (slot : PlannedAuthSlot) : AuthError :=
  AuthError.new .missingCredential
    ("missing materialized credential `" ++ slot.credential.id.namespace ++ "." ++
      slot.credential.id.name ++ "` for auth usage `" ++ slot.usageId ++ "`")

/-- The write of a slot. -/
def slotWrite (materials : List AuthTransportMaterial) (slot : PlannedAuthSlot) :
    Except AuthError AuthWrite :=
  match materialFor materials slot.id with
  | none => .error (missingMaterial slot)
  | some material => authWrite fromStr encode slot material

def materializeSlots (materials : List AuthTransportMaterial) :
    List PlannedAuthSlot → Message β → Except AuthError (Message β)
  | [], message => .ok message
  | slot :: rest, message =>
    match slotWrite fromStr encode materials slot with
    | .error error => .error error
    | .ok write => materializeSlots materials rest (message.write write)

def materializeAuthentication (message : Message β) (planned : AuthPlacementPlan)
    (materials : List AuthTransportMaterial) : Except AuthError (Message β) :=
  materializeSlots fromStr encode materials planned.slots message

end materialization

/-! ## writes -/

def AuthWrite.target : AuthWrite → AuthTarget
  | .header name _ => .header name
  | .query key _ => .query key

def AuthWrite.value : AuthWrite → HeaderValue ⊕ String
  | .header _ value => .inl value
  | .query _ secret => .inr secret

/-- What a message has at a target. -/
def Message.values (message : Message β) (target : AuthTarget) : List (HeaderValue ⊕ String) :=
  valuesAt message.headers message.url target

section writes

variable {message : Message β} {write : AuthWrite} {writes : List AuthWrite}

theorem values_write_self (h : message.values write.target = []) :
    (message.write write).values write.target = [write.value] := by
  cases write with
  | header name value => simp [Message.values, Message.write, AuthWrite.target, valuesAt,
      AuthWrite.value]
  | query key secret =>
      simp only [Message.values, AuthWrite.target, valuesAt, List.map_eq_nil_iff] at h
      simp [Message.values, Message.write, AuthWrite.target, valuesAt, AuthWrite.value, h]

theorem values_write_of_ne {target : AuthTarget} (h : target ≠ write.target) :
    (message.write write).values target = message.values target := by
  cases write with
  | header name value =>
      cases target with
      | header name' =>
          have hne : name' ≠ name := fun heq => h (heq ▸ rfl)
          simp only [Message.values, Message.write, valuesAt, Multimap.getAll_insert_of_ne hne]
      | query key => rfl
  | query key secret =>
      cases target with
      | header name => rfl
      | query key' =>
          have hne : ¬ key = key' := fun heq => h (heq ▸ rfl)
          simp [Message.values, Message.write, valuesAt, hne]

theorem values_foldl_of_not_mem {target : AuthTarget}
    (h : ∀ write ∈ writes, target ≠ write.target) :
    (writes.foldl Message.write message).values target = message.values target := by
  induction writes generalizing message with
  | nil => rfl
  | cons write rest ih =>
      rw [List.foldl_cons, ih (fun w hw => h w (List.mem_cons_of_mem _ hw)),
        values_write_of_ne (h write List.mem_cons_self)]

/-- Writes to targets of their own, with nothing there before, all stay. -/
theorem values_foldl_of_mem (hown : writes.Pairwise fun a b => a.target ≠ b.target)
    (hfree : ∀ write ∈ writes, message.values write.target = []) {write : AuthWrite}
    (h : write ∈ writes) :
    (writes.foldl Message.write message).values write.target = [write.value] := by
  induction writes generalizing message with
  | nil => simp at h
  | cons first rest ih =>
      obtain ⟨hfirst, hrest⟩ := List.pairwise_cons.mp hown
      rw [List.foldl_cons]
      cases List.mem_cons.mp h with
      | inl heq =>
          subst heq
          rw [values_foldl_of_not_mem hfirst,
            values_write_self (hfree write List.mem_cons_self)]
      | inr hmem =>
          refine ih hrest (fun w hw => ?_) hmem
          rw [values_write_of_ne (Ne.symm (hfirst w hw)),
            hfree w (List.mem_cons_of_mem _ hw)]

def AuthWrite.pair? : AuthWrite → Option (String × String)
  | .query key secret => some (key, secret)
  | .header _ _ => none

/-- The pairs of the query are those there were and those that were written. -/
theorem queryPairs_foldl :
    (writes.foldl Message.write message).url.queryPairs =
      message.url.queryPairs ++ writes.filterMap (·.pair?) := by
  induction writes generalizing message with
  | nil => simp
  | cons write rest ih =>
      rw [List.foldl_cons, ih]
      cases write with
      | header name value => simp [Message.write, AuthWrite.pair?]
      | query key secret => simp [Message.write, AuthWrite.pair?]

/-- Writes change nothing but the headers and the query. -/
theorem frame_foldl (message : Message β) (writes : List AuthWrite) :
    let message' := writes.foldl Message.write message
    message'.method = message.method ∧ message'.url.base = message.url.base ∧
      message'.timeout = message.timeout ∧ message'.body = message.body := by
  induction writes generalizing message with
  | nil => exact ⟨rfl, rfl, rfl, rfl⟩
  | cons write rest ih =>
      have hwrite : (message.write write).method = message.method ∧
          (message.write write).url.base = message.url.base ∧
          (message.write write).timeout = message.timeout ∧
          (message.write write).body = message.body := by
        cases write <;> exact ⟨rfl, rfl, rfl, rfl⟩
      have hrest := ih (message.write write)
      exact ⟨hrest.1.trans hwrite.1, hrest.2.1.trans hwrite.2.1,
        hrest.2.2.1.trans hwrite.2.2.1, hrest.2.2.2.trans hwrite.2.2.2⟩

end writes

/-! ## what materialization writes -/

section slots

variable {fromStr : String → Option HeaderValue} {encode : String → String}
  {materials : List AuthTransportMaterial}

theorem target_of_authWrite {slot : PlannedAuthSlot} {material : AuthTransportMaterial}
    {write : AuthWrite} (h : authWrite fromStr encode slot material = .ok write) :
    write.target = slot.placement.target := by
  have hheader : ∀ {name value message}, headerWrite fromStr name value message = .ok write →
      write.target = .header name := by
    intro name value message hw
    unfold headerWrite at hw
    split at hw
    · contradiction
    · exact Except.ok.inj hw ▸ rfl
  unfold authWrite at h
  split at h
  · next hp => rw [hp]; exact hheader h
  · next hp => rw [hp]; exact hheader h
  · next hp => rw [hp]; exact Except.ok.inj h ▸ rfl
  · next hp => rw [hp]; exact hheader h
  · contradiction

theorem target_of_slotWrite {slot : PlannedAuthSlot} {write : AuthWrite}
    (h : slotWrite fromStr encode materials slot = .ok write) :
    write.target = slot.placement.target := by
  unfold slotWrite at h
  split at h
  · contradiction
  · exact target_of_authWrite h

/-- Materialization succeeds exactly if every slot has its write, and then it
is these writes. -/
theorem materializeSlots_eq_ok_iff {slots : List PlannedAuthSlot} {message message' : Message β} :
    materializeSlots fromStr encode materials slots message = .ok message' ↔
      ∃ writes, List.Forall₂ (fun slot write =>
          slotWrite fromStr encode materials slot = .ok write) slots writes ∧
        message' = writes.foldl Message.write message := by
  induction slots generalizing message with
  | nil => simp [materializeSlots, eq_comm]
  | cons slot rest ih =>
      rw [materializeSlots]
      cases hw : slotWrite fromStr encode materials slot with
      | error error => simp [List.forall₂_cons_left_iff, hw]
      | ok write =>
          simp only [ih, List.forall₂_cons_left_iff, hw, Except.ok.injEq]
          constructor
          · intro h
            obtain ⟨writes, hwrites, heq⟩ := h
            exact ⟨write :: writes, ⟨write, writes, rfl, hwrites, rfl⟩, heq⟩
          · intro h
            obtain ⟨_, ⟨_, writes, rfl, hwrites, rfl⟩, heq⟩ := h
            exact ⟨writes, hwrites, heq⟩

/-- Materials that were validated against their slots are found for them. -/
theorem materialFor_of_validated {slots : List PlannedAuthSlot}
    (hids : slots.Pairwise fun a b => a.id < b.id)
    (h : List.Forall₂ (fun slot material => validateMaterial material slot = .ok ()) slots
      materials) :
    List.Forall₂ (fun slot material => materialFor materials slot.id = some material) slots
      materials := by
  have hsame : List.Forall₂ (fun slot material =>
      AuthTransportMaterial.slotId material = PlannedAuthSlot.id slot) slots materials := by
    refine h.imp fun slot material hv => ?_
    unfold validateMaterial at hv
    split at hv
    · contradiction
    · next hno => exact Decidable.not_not.mp fun hne => hno (.inl hne)
  have hmaps : materials.map (·.slotId) = slots.map (·.id) :=
    Pairs.map_eq_map (fun heq => heq) hsame.flip
  have hnodup : (materials.map (·.slotId)).Nodup := by
    rw [hmaps, List.Nodup, List.pairwise_map]
    exact hids.imp fun hlt => Nat.ne_of_lt hlt
  refine (Pairs.mem_right hsame).imp fun slot material hpair => ?_
  refine find?_of_unique (List.mem_reverse.mpr hpair.1) (decide_eq_true hpair.2)
    (fun material' hmem' hid => ?_)
  rw [List.mem_reverse] at hmem'
  rw [decide_eq_true_eq] at hid
  exact List.inj_on_of_nodup_map hnodup hmem' hpair.1 (hid.trans hpair.2.symm)

/-- With validated materials, materialization succeeds exactly if every
material has a valid value for its slot. -/
theorem materializeSlots_isOk_iff {slots : List PlannedAuthSlot} (message : Message β)
    (h : List.Forall₂ (fun slot material => materialFor materials slot.id = some material) slots
      materials) :
    (∃ message', materializeSlots fromStr encode materials slots message = .ok message') ↔
      List.Forall₂ (fun slot material =>
        ∃ write, authWrite fromStr encode slot material = .ok write) slots materials := by
  have hwrite : ∀ {slot material}, materialFor materials (PlannedAuthSlot.id slot) =
      some material →
      slotWrite fromStr encode materials slot = authWrite fromStr encode slot material := by
    intro slot material hm
    simp only [slotWrite, hm]
  constructor
  · intro hok
    obtain ⟨message', hok⟩ := hok
    obtain ⟨writes, hwrites, _⟩ := materializeSlots_eq_ok_iff.mp hok
    refine (Pairs.mem_left h).imp fun slot material hpair => ?_
    obtain ⟨write, _, hw⟩ := Pairs.exists_right hwrites hpair.1
    exact ⟨write, (hwrite hpair.2).symm.trans hw⟩
  · intro hall
    have hslots : ∀ slot ∈ slots, ∃ write, slotWrite fromStr encode materials slot =
        .ok write := by
      intro slot hs
      obtain ⟨material, _, hm, write, hw⟩ := Pairs.exists_right (Pairs.both h hall) hs
      exact ⟨write, (hwrite hm).trans hw⟩
    obtain ⟨writes, hwrites⟩ := Pairs.exists_partners hslots
    exact ⟨_, materializeSlots_eq_ok_iff.mpr ⟨writes, hwrites, rfl⟩⟩

end slots

end Concord
