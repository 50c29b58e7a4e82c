import Replicant.Transport.Carriers
import Replicant.Transport.Labels

/-!
# Attachments

What the commands for carriers and payloads do to the devices, and what holds of the devices at every
time of a delivery.
-/

namespace Replicant.Transport

open Lib Lib.Text Contract Std List

variable {w' : World} {code x : String}

/-! ## What the commands do -/

namespace World

/-- A command for attached devices was submitted: the server executes `send`, or does nothing. -/
structure Commands (command : AttachmentCommand) (send : World → World) (w w' : World) : Prop where
  devices : w'.devices = w.devices ∨ w'.devices = (send w).devices
  commands : w'.commands = command :: w.commands
  travels : w'.travels = w.travels
  remaining : w'.remaining = w.remaining
  originDelivered : w'.originDelivered = w.originDelivered

lemma commands_submitAttach (w : World) (options : DeliveryOptions) (carrier : String)
    (codes : List String) :
    w.Commands ⟨true, carrier, codes, w.devices carrier⟩ (attach carrier codes)
        (w.submitAttach options carrier codes) ∧
      (w.submitAttach options carrier codes).custody = w.custody := by
  unfold submitAttach submit
  split
  · exact ⟨⟨.inr rfl, rfl, rfl, rfl, rfl⟩, rfl⟩
  · split
    · exact ⟨⟨.inl rfl, rfl, rfl, rfl, rfl⟩, rfl⟩
    · exact ⟨⟨.inr rfl, rfl, rfl, rfl, rfl⟩, rfl⟩

lemma commands_submitDetach (w : World) (options : DeliveryOptions) (carrier : String)
    (codes : List String) :
    w.Commands ⟨false, carrier, codes, w.devices carrier⟩ (detach carrier codes)
        (w.submitDetach options carrier codes) ∧
      ∀ x, (w.submitDetach options carrier codes).custody x =
        if x ∈ codes ∧ w.custody x = Custody.waiting then .delivered else w.custody x := by
  unfold submitDetach submit
  split
  · exact ⟨⟨.inr rfl, rfl, rfl, rfl, rfl⟩, fun _ => rfl⟩
  · split
    · exact ⟨⟨.inl rfl, rfl, rfl, rfl, rfl⟩, fun _ => rfl⟩
    · exact ⟨⟨.inr rfl, rfl, rfl, rfl, rfl⟩, fun _ => rfl⟩

/-! ## Attachments -/

/-- The two ends of an attachment agree, and the server writes codes in their canonical form. -/
structure Consistent (w : World) : Prop where
  attached : ∀ carrier code,
    code ∈ (w.devices carrier).attachedDevices ↔ (w.devices code).attachedTo = some carrier
  canonical : ∀ carrier, ∀ code ∈ (w.devices carrier).attachedDevices,
    canonicalDeviceCode code = code

variable {w : World} {codes : List String} {carrier : String}

lemma Consistent.of_same (h : w.Consistent)
    (hto : ∀ x, (w'.devices x).attachedTo = (w.devices x).attachedTo)
    (hdevs : ∀ x, (w'.devices x).attachedDevices = (w.devices x).attachedDevices) :
    w'.Consistent where
  attached carrier code := by
    rw [hto, hdevs]
    exact h.attached carrier code
  canonical carrier code hcode := by
    rw [hdevs] at hcode
    exact h.canonical carrier code hcode

section Commands

variable {command : AttachmentCommand} {send : World → World}

/-- What holds whether the server executes the command or not. -/
lemma Commands.induct {P : (String → Device) → Prop} (h : w.Commands command send w')
    (hsame : P w.devices) (hdone : P (send w).devices) : P w'.devices := by
  rcases h.devices with heq | heq
  · rwa [heq]
  · rwa [heq]

lemma Commands.consistent (h : w.Commands command send w') (hw : w.Consistent)
    (hsend : (send w).Consistent) : w'.Consistent := by
  rcases h.devices with heq | heq
  · exact hw.of_same (fun x => by rw [heq]) fun x => by rw [heq]
  · exact hsend.of_same (fun x => by rw [heq]) fun x => by rw [heq]

/-- What was attached to a carrier at the place is still, or is left there. -/
lemma Commands.detached {place : String} (h : w.Commands command (detach carrier codes) w')
    (hx : x ≠ carrier) (hmem : x ∈ codes) (hto : (w.devices x).attachedTo = some carrier)
    (hstands : (w.devices carrier).standsAt place = true) :
    (w'.devices x).attachedTo = some carrier ∨
      ((w'.devices x).standsAt place = true ∧ (w'.devices x).attachedTo = none) := by
  refine h.induct (P := fun d => (d x).attachedTo = _ ∨ ((d x).standsAt place = true ∧
    (d x).attachedTo = _)) (.inl hto) (.inr ?_)
  unfold Device.standsAt at hstands ⊢
  rw [Bool.and_eq_true] at hstands ⊢
  rw [show (detach carrier codes w).devices x = _ from (if_neg hx).trans (if_pos ⟨hmem, hto⟩)]
  exact ⟨⟨rfl, hstands.2⟩, rfl⟩

end Commands

/-- A travel moves nothing but the device that departs. -/
lemma Departs.consistent {key destination : String} {id : Option OperationId}
    (h : w.Departs key destination id w') (hw : w.Consistent) : w'.Consistent :=
  hw.of_same (fun x => (h.attached x).1) fun x => (h.attached x).2

section Effects

variable (w : World) (carrier : String) (codes : List String)

lemma devices_attach_self : (w.attach carrier codes).devices carrier =
    { w.devices carrier with attachedDevices := (w.devices carrier).attachedDevices ++ codes } :=
  if_pos rfl

lemma devices_attach_of_not_mem (hx : x ≠ carrier) (hmem : x ∉ codes) :
    (w.attach carrier codes).devices x = w.devices x := (if_neg hx).trans (if_neg hmem)

lemma devices_detach_self : (w.detach carrier codes).devices carrier = { w.devices carrier with
      attachedDevices := (w.devices carrier).attachedDevices.filter (· ∉ codes) } := if_pos rfl

lemma devices_detach_of_not_mem (hx : x ≠ carrier) (hmem : x ∉ codes) :
    (w.detach carrier codes).devices x = w.devices x :=
  (if_neg hx).trans (if_neg fun h => hmem h.1)

lemma attachedTo_attach (hcar : carrier ∉ codes) (x : String) :
    ((w.attach carrier codes).devices x).attachedTo =
      if x ∈ codes then some carrier else (w.devices x).attachedTo := by
  unfold attach
  dsimp only
  split
  · rename_i heq
    rw [heq, if_neg hcar]
  · split <;> rfl

lemma attachedDevices_attach (x : String) : ((w.attach carrier codes).devices x).attachedDevices =
      if x = carrier then (w.devices carrier).attachedDevices ++ codes
      else (w.devices x).attachedDevices := by
  unfold attach
  dsimp only
  split
  · rfl
  · split <;> rfl

lemma attachedTo_detach (hcar : carrier ∉ codes) (x : String) :
    ((w.detach carrier codes).devices x).attachedTo =
      if x ∈ codes ∧ (w.devices x).attachedTo = some carrier then none
      else (w.devices x).attachedTo := by
  unfold detach
  dsimp only
  split
  · rename_i heq
    rw [heq, if_neg fun h => hcar h.1]
  · split <;> rfl

lemma attachedDevices_detach (x : String) : ((w.detach carrier codes).devices x).attachedDevices =
      if x = carrier then (w.devices carrier).attachedDevices.filter (· ∉ codes)
      else (w.devices x).attachedDevices := by
  unfold detach
  dsimp only
  split
  · rfl
  · split <;> rfl

end Effects

lemma Consistent.attach (h : w.Consistent) (hcar : carrier ∉ codes)
    (hcanon : ∀ code ∈ codes, canonicalDeviceCode code = code)
    (hfree : ∀ code ∈ codes, (w.devices code).attachedTo = none) :
    (w.attach carrier codes).Consistent := by
  refine ⟨fun c code => ?_, fun c code hcode => ?_⟩
  · rw [attachedDevices_attach, attachedTo_attach w carrier codes hcar]
    have hold := h.attached c code
    by_cases hmem : code ∈ codes
    · rw [if_pos hmem]
      rw [hfree code hmem] at hold
      by_cases hc : c = carrier
      · subst hc
        rw [if_pos rfl, mem_append]
        exact ⟨fun _ => rfl, fun _ => .inr hmem⟩
      · rw [if_neg hc, hold]
        exact ⟨nofun, fun heq => absurd (Option.some.inj heq).symm hc⟩
    · rw [if_neg hmem]
      by_cases hc : c = carrier
      · subst hc
        rw [if_pos rfl, mem_append, ← hold]
        exact ⟨fun hor => hor.resolve_right hmem, .inl⟩
      · rw [if_neg hc, hold]
  · rw [attachedDevices_attach] at hcode
    split at hcode
    · rcases mem_append.mp hcode with hold | hnew
      · exact h.canonical carrier code hold
      · exact hcanon code hnew
    · exact h.canonical c code hcode

lemma Consistent.detach (h : w.Consistent) (hcar : carrier ∉ codes) :
    (w.detach carrier codes).Consistent := by
  refine ⟨fun c code => ?_, fun c code hcode => ?_⟩
  · rw [attachedDevices_detach, attachedTo_detach w carrier codes hcar]
    have hold := h.attached c code
    by_cases hc : c = carrier
    · subst hc
      rw [if_pos rfl, mem_filter, decide_eq_true_eq, hold]
      by_cases hto : (w.devices code).attachedTo = some c
      · by_cases hmem : code ∈ codes
        · rw [if_pos ⟨hmem, hto⟩]
          exact ⟨fun hand => absurd hmem hand.2, nofun⟩
        · rw [if_neg fun hand => hmem hand.1]
          exact ⟨fun hand => hand.1, fun heq => ⟨heq, hmem⟩⟩
      · rw [if_neg fun hand => hto hand.2]
        exact ⟨fun hand => hand.1, fun heq => absurd heq hto⟩
    · rw [if_neg hc, hold]
      by_cases hand : code ∈ codes ∧ (w.devices code).attachedTo = some carrier
      · rw [if_pos hand, hand.2]
        exact ⟨fun heq => absurd (Option.some.inj heq).symm hc, nofun⟩
      · rw [if_neg hand]
  · rw [attachedDevices_detach] at hcode
    split at hcode
    · exact h.canonical carrier code (mem_filter.mp hcode).1
    · exact h.canonical c code hcode

/-! ## Time passes -/

/-- Devices arrive, and nothing else happens. -/
structure Drifts (w w' : World) : Prop where
  devices : ∀ x, (w.devices x).Drifts (w'.devices x)
  travels : w'.travels = w.travels
  remaining : w'.remaining = w.remaining
  originDelivered : w'.originDelivered = w.originDelivered
  commands : w'.commands = w.commands
  custody : w'.custody = w.custody

lemma Drifts.refl (w : World) : w.Drifts w :=
  ⟨fun _ => Device.Drifts.refl _, rfl, rfl, rfl, rfl, rfl⟩

lemma Drifts.trans {w'' : World} (h : w.Drifts w') (h' : w'.Drifts w'') : w.Drifts w'' where
  devices x := (h.devices x).trans (h'.devices x)
  travels := h'.travels.trans h.travels
  remaining := h'.remaining.trans h.remaining
  originDelivered := h'.originDelivered.trans h.originDelivered
  commands := h'.commands.trans h.commands
  custody := h'.custody.trans h.custody

/-- Only the devices and the journal change. -/
lemma Drifts.exists_eq (h : w.Drifts w') :
    ∃ devices journal, w' = { w with devices := devices, journal := journal } := by
  obtain ⟨devices, journal, remaining, originDelivered, travels, commands, custody⟩ := w'
  obtain ⟨-, rfl, rfl, rfl, rfl, rfl⟩ := h
  exact ⟨devices, journal, rfl⟩

lemma drifts_setDevice {device : Device} (h : (w.devices code).Drifts device) :
    w.Drifts (w.setDevice code device) := by
  refine ⟨fun x => ?_, rfl, rfl, rfl, rfl, rfl⟩
  by_cases hx : x = code
  · subst hx
    rwa [devices_setDevice_self]
  · rw [devices_setDevice_of_ne _ _ hx]
    exact Device.Drifts.refl _

lemma drifts_arrive (w : World) (code : String) : w.Drifts (w.arrive code) := by
  unfold arrive
  split
  · rename_i travel htravel
    refine drifts_setDevice ⟨rfl, rfl, fun hnone => ?_, fun t ht => .inr ⟨rfl, ?_⟩⟩
    · rw [htravel] at hnone
      cases hnone
    · rw [htravel] at ht
      rw [Option.some.inj ht]
  · exact Drifts.refl w

lemma drifts_setCapacity (w : World) (code : String) (attachCapacity cargoCapacity : Option ℤ) :
    w.Drifts (w.setCapacity code attachCapacity cargoCapacity) :=
  drifts_setDevice ⟨rfl, rfl, fun h => ⟨h, rfl⟩, fun _ h => .inl h⟩

end World

/-! ## Invariants -/

namespace PayloadJob

variable (job : PayloadJob)

def payloadKeys : List String := job.payloads.map fun payload => canonicalDeviceCode payload.code

def carrierKeys : List String := job.carriers.map canonicalDeviceCode

/-- No device is listed twice, as payload or as carrier. -/
structure Distinct : Prop where
  payloads : job.payloadKeys.Nodup
  carriers : job.carrierKeys.Nodup
  apart : ∀ key ∈ job.payloadKeys, key ∉ job.carrierKeys

/-- The device stands at the destination, free. -/
def AtDestination (device : Device) : Prop :=
  device.standsAt job.destination = true ∧ device.attachedTo = none

/-- Only payloads are attached and detached, and they are detached at the destination only. -/
structure CommandOk (command : AttachmentCommand) : Prop where
  devices : ∀ code ∈ command.devices, code ∈ job.payloadKeys
  detaches : command.attaches = false → command.status.standsAt job.destination = true

/-- What holds at every time after the start `w₀`. Other devices are left alone, and with `fresh`, no
travel has the identity of an earlier one. -/
structure Sound (fresh : Prop) (w₀ w : World) : Prop where
  consistent : w.Consistent
  commands : ∀ command ∈ w.commands, job.CommandOk command
  held : ∀ key carrier, w.custody key = .held carrier →
    key ∈ job.payloadKeys ∧ carrier ∈ job.carrierKeys
  fresh : fresh → w.travels.Nodup
  others : ∀ x, x ∉ job.payloadKeys → x ∉ job.carrierKeys → (w₀.devices x).Drifts (w.devices x)
  travels : ∀ id ∈ w.travels, id ∈ w₀.travels ∨ id.target ∈ job.carrierKeys

/-- The codes are of payloads that stand at the destination and that nobody will move. -/
def Settled (delivered : List String) (w : World) : Prop :=
  ∀ code ∈ delivered, code ∈ job.payloadCodes ∧
    job.AtDestination (w.devices (canonicalDeviceCode code)) ∧
    ∀ carrier, w.custody (canonicalDeviceCode code) ≠ .held carrier

/-- What holds while the loops of an origin run: each payload of the origin is waiting, reserved by a
carrier, or delivered. -/
structure Shares (fresh : Prop) (w₀ : World) (delivered : List String) (pool : List PayloadDevice)
    (w : World) : Prop extends job.Sound fresh w₀ w where
  settled : job.Settled delivered w
  remaining_mem : ∀ payload ∈ w.remaining, payload ∈ pool
  remaining_nodup : (w.remaining.map fun payload => canonicalDeviceCode payload.code).Nodup
  waiting : ∀ payload ∈ w.remaining, w.custody (canonicalDeviceCode payload.code) = .waiting
  later : ∀ code ∈ job.payloadCodes, code ∉ delivered → (∀ payload ∈ pool, payload.code ≠ code) →
    w.custody (canonicalDeviceCode code) = .waiting
  cover : ∀ payload ∈ pool, payload ∈ w.remaining ∨
    (∃ carrier ∈ job.carrierKeys, w.custody (canonicalDeviceCode payload.code) = .held carrier) ∨
    payload.code ∈ w.originDelivered
  arrived : ∀ code ∈ w.originDelivered, code ∈ job.payloadCodes ∧
    job.AtDestination (w.devices (canonicalDeviceCode code)) ∧
    w.custody (canonicalDeviceCode code) = .delivered

variable {job}

lemma mem_payloadKeys (h : code ∈ job.payloadCodes) :
    canonicalDeviceCode code ∈ job.payloadKeys := by
  obtain ⟨payload, hpay, rfl⟩ := mem_map.mp h
  exact mem_map_of_mem hpay

/-- Distinct payloads have distinct codes. -/
lemma Distinct.code_eq (h : job.Distinct) {code' : String} (hcode : code ∈ job.payloadCodes)
    (hcode' : code' ∈ job.payloadCodes)
    (heq : canonicalDeviceCode code = canonicalDeviceCode code') : code = code' := by
  obtain ⟨p, hp, rfl⟩ := mem_map.mp hcode
  obtain ⟨p', hp', rfl⟩ := mem_map.mp hcode'
  rw [inj_on_of_nodup_map h.payloads hp hp' heq]

end PayloadJob

end Replicant.Transport
