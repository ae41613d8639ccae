import Ratputer.Lemmas.Device
import Ratputer.FaultyVolume

/-!
# A file that could not be read

A load that fails on a file that is there leaves it at risk: the firmware goes on with the defaults, or without a host key, and
the next save replaces the file. `Watch` follows the accesses of a boot and says which saves those are. They are the ones that
a new connection, a forgotten network, a new server password or a running SSH server leads to.
-/

namespace Ratputer

variable {V : Type}

/-- What the accesses so far have left of the two files. -/
structure Watch where
  /-- The configuration file is there, and the last attempt to load it failed. -/
  lost : Bool := false
  /-- The configuration in memory started from the defaults. -/
  derived : Bool := true
  /-- The host key's file is there, and the attempt to load it failed. -/
  keyLost : Bool := false
  deriving DecidableEq

namespace Watch

/-- A host key was read. -/
def keyRead : Except StorageError (List UInt8) → Bool
  | .ok bytes => bytes.length = 32
  | .error _ => false

/-- One access, on a card where `present` says which files there are. A save puts a file that was read before in the place of
the old one. -/
def see (present : V → Str → Bool) (w : Watch) : Access V → Watch
  | .load _ (.ok _) => { w with lost := false, derived := false }
  | .load card (.error error) =>
    { w with lost := present card CONFIG_FILE, derived := w.derived || error = .missing }
  | .save _ _ => { w with lost := false }
  | .loadKey card result => { w with keyLost := present card HOSTKEY_FILE && !keyRead result }
  | .saveKey _ _ => { w with keyLost := false }
  | .edit card =>
    { w with lost := w.lost && present card CONFIG_FILE, keyLost := w.keyLost && present card HOSTKEY_FILE }

def watch (present : V → Str → Bool) (w : Watch) (a : Access V) : Watch × Unit := (w.see present a, ())

/-- A save now would replace a file that was never read with one made from the defaults. -/
def AtRisk (w : Watch) : Prop := w.lost = true ∧ w.derived = true

/-- No save replaces a file that could not be read. -/
def Allowed (w : Watch) : Access V → Prop
  | .save _ _ => ¬ w.AtRisk
  | .saveKey _ _ => w.keyLost = false
  | _ => True

instance (w : Watch) (a : Access V) : Decidable (w.Allowed a) := by
  unfold Allowed AtRisk
  split <;> infer_instance

end Watch

namespace Device

/-- The pass spares the files at risk: once its keys and the browser have had their turn, it makes no change to a configuration
that is at risk, and does not run the SSH server, with a link or a client, while the host key is. -/
structure Spares (D : ConfigVolume V) (toml : Toml) (present : V → Str → Bool) (x : Device V × Watch) (t : Turn V) : Prop where
  config : (Mealy.final (Watch.watch present) x.2 (x.1.browse t).2).AtRisk → x.1.mounted = true →
    ¬ (x.1.browse t).1.fw.Changes t.pass
  key : (Mealy.final (Watch.watch present) x.2 (x.1.browse t).2).keyLost = true →
    (x.1.turn D toml t).1.fw.sshActive = true → ¬ (t.pass.linkUp = true ∨ t.accepts = true)

namespace UnreadableAux

open Firmware SingleUserAux UsbScreenAux Watch Mealy

variable (present : V → Str → Bool) (w : Watch) {as : List (Access V)}

/-! ## Accesses of one kind -/

/-- Other uses of the card are allowed, and can only take a file away. -/
theorem edits_spec (h : ∀ a ∈ as, ∃ card, a = .edit card) :
    Along (watch present) Allowed w as ∧ ((final (watch present) w as).AtRisk → w.AtRisk) ∧
      ((final (watch present) w as).keyLost = true → w.keyLost = true) := by
  refine ⟨along_of_mem (fun a ha w => ?_) w, not_imp_not.mp fun hr => ?_, not_imp_not.mp fun hk => ?_⟩
  · obtain ⟨card, rfl⟩ := h a ha
    trivial
  · refine invariant_of_mem (fun w : Watch => ¬ w.AtRisk) (fun a ha w hr => ?_) hr
    obtain ⟨card, rfl⟩ := h a ha
    rintro ⟨hl, hd⟩
    exact hr ⟨(Bool.and_eq_true _ _ ▸ hl : _ ∧ _).1, hd⟩
  · refine invariant_of_mem (fun w : Watch => ¬ w.keyLost = true) (fun a ha w hk hk' => ?_) hk
    obtain ⟨card, rfl⟩ := h a ha
    exact hk (Bool.and_eq_true _ _ ▸ hk' : _ ∧ _).1

/-- The USB stage's accesses are allowed, and leave the host key's file as it was or take it away. -/
theorem loads_spec (h : ∀ a ∈ as, (∃ card, a = .edit card) ∨ ∃ card result, a = .load card result) :
    Along (watch present) Allowed w as ∧ ((final (watch present) w as).keyLost = true → w.keyLost = true) := by
  refine ⟨along_of_mem (fun a ha w => ?_) w, not_imp_not.mp fun hk => ?_⟩
  · rcases h a ha with ⟨card, rfl⟩ | ⟨card, result, rfl⟩ <;> trivial
  · refine invariant_of_mem (fun w : Watch => ¬ w.keyLost = true) (fun a ha w hk hk' => ?_) hk
    rcases h a ha with ⟨card, rfl⟩ | ⟨card, result, rfl⟩
    · exact hk (Bool.and_eq_true _ _ ▸ hk' : _ ∧ _).1
    · cases result <;> exact hk hk'

/-- Of the saves of a stage the first decides; after it nothing is at risk. -/
theorem saves_spec (h : ∀ a ∈ as, IsSave a) :
    (Along (watch present) Allowed w as ↔ (as ≠ [] → ¬ w.AtRisk)) ∧
      ((final (watch present) w as).AtRisk ↔ as = [] ∧ w.AtRisk) ∧ (final (watch present) w as).keyLost = w.keyLost := by
  have hsafe : ∀ a ∈ as, ∀ w, ¬ (watch present w a).1.AtRisk := by
    intro a ha w hr
    obtain ⟨card, file, rfl⟩ := h a ha
    exact absurd hr.1 Bool.false_ne_true
  refine ⟨along_iff_first (fun w : Watch => ¬ w.AtRisk) hsafe (fun a ha w => ?_) (fun _ => id) w, ⟨fun hr => ?_, fun hr => ?_⟩, ?_⟩
  · obtain ⟨card, file, rfl⟩ := h a ha
    exact Iff.rfl
  · by_cases hne : as = []
    · subst hne
      exact ⟨rfl, hr⟩
    · exact absurd hr (final_of_mem (fun w : Watch => ¬ w.AtRisk) hsafe hne w)
  · rw [hr.1]
    exact hr.2
  · refine invariant_of_mem (fun w' : Watch => w'.keyLost = w.keyLost) (fun a ha w' hk => ?_) rfl
    obtain ⟨card, file, rfl⟩ := h a ha
    exact hk

/-- A write of the host key decides, too. -/
theorem key_saves_spec (h : ∀ a ∈ as, ∃ card seed, a = .saveKey card seed) :
    (Along (watch present) Allowed w as ↔ (as ≠ [] → w.keyLost = false)) ∧
      ((final (watch present) w as).keyLost = true ↔ as = [] ∧ w.keyLost = true) := by
  have hsafe : ∀ a ∈ as, ∀ w, (watch present w a).1.keyLost = false := by
    intro a ha w
    obtain ⟨card, seed, rfl⟩ := h a ha
    rfl
  refine ⟨along_iff_first (fun w : Watch => w.keyLost = false) hsafe (fun a ha w => ?_) (fun _ => id) w, fun hk => ?_, fun hk => ?_⟩
  · obtain ⟨card, seed, rfl⟩ := h a ha
    exact Iff.rfl
  · by_cases hne : as = []
    · subst hne
      exact ⟨rfl, hk⟩
    · have hoff := final_of_mem (fun w : Watch => w.keyLost = false) hsafe hne w
      exact absurd (hoff.symm.trans hk) Bool.false_ne_true
  · rw [hk.1]
    exact hk.2

/-! ## A pass -/

variable {D : ConfigVolume V} (toml : Toml)

/-- The state between two passes: a host key at risk is not in memory, or waits for the card. -/
structure Rests (x : Device V × Watch) : Prop where
  fw : x.1.fw.AtRest
  key : x.2.keyLost = true → Due x.1.key

/-- On a mounted card, ensuring the key writes exactly when that puts one at risk out of its place. -/
theorem ensure_step {d : Device V} (hm : d.mounted = true) (hk : w.keyLost = true → Due d.key) (c : Bool) (random : Seed) :
    (Along (watch present) Allowed w (guarded c (ensureHostkey D · random) d).2 ↔ ¬ (w.keyLost = true ∧ c = true)) ∧
      ((final (watch present) w (guarded c (ensureHostkey D · random) d).2).keyLost = true ↔
        w.keyLost = true ∧ c = false) ∧
      (c = false → (guarded c (ensureHostkey D · random) d).1 = d) ∧
      (guarded c (ensureHostkey D · random) d).1.fw = d.fw := by
  obtain ⟨hfw, hsaves, hdue, -⟩ := d.ensureHostkey_spec D random
  cases c with
  | false => exact ⟨iff_of_true trivial fun h => absurd h.2 Bool.false_ne_true, (and_iff_left rfl).symm, fun _ => rfl, rfl⟩
  | true =>
    obtain ⟨halong, hfinal⟩ := key_saves_spec present w hsaves
    refine ⟨halong.trans ⟨fun h hkey => ?_, fun h hne => ?_⟩, hfinal.trans ⟨fun h => ?_, fun h => absurd h.2 nofun⟩, nofun, hfw⟩
    · exact absurd ((h (hdue (hk hkey.1) hm)).symm.trans hkey.1) Bool.false_ne_true
    · exact Bool.eq_false_iff.mpr fun hkey => h ⟨hkey, rfl⟩
    · exact absurd h.1 (hdue (hk h.2) hm)

/-- The server's poll puts a host key at risk out of its place when it runs with a link or a client. -/
theorem serve_step {d : Device V} {t : Turn V} (hrun : d.fw.sshActive = true → d.mounted = true ∧ d.fw.network = true)
    (hk : w.keyLost = true → Due d.key) :
    (Along (watch present) Allowed w (d.serve D t).2 ↔
        (w.keyLost = true → d.fw.sshActive = true → ¬ (t.pass.linkUp = true ∨ t.accepts = true))) ∧
      ((final (watch present) w (d.serve D t).2).keyLost = true → Due (d.serve D t).1.key) := by
  rcases ha : d.fw.sshActive with _ | _
  · obtain ⟨hnone, hkey⟩ := (d.serve_spec D t).2 ha
    rw [hnone, hkey]
    exact ⟨iff_of_true trivial fun _ => nofun, hk⟩
  · obtain ⟨hm, hn⟩ := hrun ha
    obtain ⟨howners, -⟩ := networkPoll_frame d.fw t.pass
    have hon : ((d.fw.networkPoll t.pass).sshActive && (d.fw.networkPoll t.pass).network) = true := by
      rw [show (d.fw.networkPoll t.pass).sshActive = true from (congrArg Owners.sshActive howners).trans ha,
        show (d.fw.networkPoll t.pass).network = true from (congrArg Owners.network howners).trans hn]
      rfl
    have hm0 : mounted { d with fw := d.fw.networkPoll t.pass } = true := (congrArg Owners.storage howners).trans hm
    obtain ⟨halong1, hfinal1, hsame1, hfw1⟩ := ensure_step present w (D := D)
      (d := { d with fw := d.fw.networkPoll t.pass }) hm0 hk t.pass.linkUp t.random
    have hm1 : (guarded t.pass.linkUp (ensureHostkey D · t.random)
        { d with fw := d.fw.networkPoll t.pass }).1.mounted = true := by
      unfold mounted
      rw [hfw1]
      exact hm0
    obtain ⟨halong2, hfinal2, hsame2, -⟩ := ensure_step present (final (watch present) w (guarded t.pass.linkUp
        (ensureHostkey D · t.random) { d with fw := d.fw.networkPoll t.pass }).2) (D := D) hm1 (fun h => by
        obtain ⟨hkey, hc⟩ := hfinal1.mp h
        rw [hsame1 hc]
        exact hk hkey) t.accepts t.random
    unfold serve
    rw [if_pos hon]
    unfold andThen edit
    dsimp only
    rw [along_append, along_append, halong1, halong2, hfinal1]
    refine ⟨⟨fun h hkey _ => ?_, fun h => ?_⟩, fun h => ?_⟩
    · rintro (hl | hacc)
      · exact h.1 ⟨hkey, hl⟩
      · refine h.2.1 ⟨⟨hkey, ?_⟩, hacc⟩
        exact Bool.eq_false_iff.mpr fun hl => h.1 ⟨hkey, hl⟩
    · refine ⟨fun hl => h hl.1 rfl (Or.inl hl.2), fun hacc => h hacc.1.1 rfl (Or.inr hacc.2), trivial, trivial⟩
    · rw [final_append, final_append] at h
      have h2 := (edits_spec present _ fun a ha => ⟨_, List.mem_singleton.mp ha⟩).2.2 h
      obtain ⟨h1, hacc⟩ := hfinal2.mp h2
      obtain ⟨hkey, hl⟩ := hfinal1.mp h1
      rw [hsame2 hacc, hsame1 hl]
      exact hk hkey

/-- With no USB command and the card mounted, the USB stage does nothing. -/
theorem usb_quiet {r : Device V} (t : Turn V) (ho : r.fw.owners.Single) (h0 : r.fw.ui.usbDiskAction = 0) :
    (r.usb D toml t).1.fw = r.fw ∧ (r.mounted = true → (r.usb D toml t).2 = []) := by
  obtain ⟨⟨load, hfw⟩, -, -, hnone⟩ := r.usb_spec D toml t
  refine ⟨hfw.trans (usb_of_no_action _ h0), fun hm => hnone ?_⟩
  rcases hsd : r.fw.usbSd with _ | card
  · rfl
  · exact absurd ((ho.usb_storage (by simp [owners, hsd])).symm.trans hm) Bool.false_ne_true

/-- From the state that the keys and the browser leave, the saves of a pass spare a configuration at risk exactly when no
command changes it. -/
theorem config_step {b : Device V} {t : Turn V} {r u a : Device V × List (Access V)} (hR : b.radio D toml t = r)
    (hU : r.1.usb D toml t = u) (hA : u.1.sshAction D toml t = a) (hb : b.fw.Ready) :
    (Along (watch present) Allowed w r.2 ∧ Along (watch present) Allowed (final (watch present) w r.2) u.2 ∧
        Along (watch present) Allowed (final (watch present) (final (watch present) w r.2) u.2) a.2) ↔
      (w.AtRisk → b.mounted = true → ¬ b.fw.Changes t.pass) := by
  have hr := b.radio_spec D toml t
  rw [hR] at hr
  obtain ⟨⟨load, hufw⟩, -, hu, -⟩ := r.1.usb_spec D toml t
  rw [hU] at hufw hu
  obtain ⟨save, ha⟩ := u.1.sshAction_spec D toml t
  rw [hA] at ha
  obtain ⟨hralong, hrisk, -⟩ := saves_spec present w hr.saves
  obtain ⟨haalong, -, -⟩ := saves_spec present (final (watch present) (final (watch present) w r.2) u.2)
    ha.saves
  obtain ⟨hk, -⟩ := b.fw.keeps_radio t.pass
  have ho : r.1.fw.owners.Single := by
    rw [hr.fw, hk.owners]
    exact hb.owners
  have hmr : r.1.mounted = b.mounted := by
    refine mounted_of_custody ?_
    rw [hr.fw]
    exact (radio_server b.fw t.pass).custody
  have hpassword : u.1.fw.hasPassword = b.fw.hasPassword := by
    rw [hufw, usb_hasPassword, hr.fw, radio_hasPassword]
  -- a password waits on its own screen, where no USB command does
  have hquiet : b.fw.hasPassword = true → u.1.mounted = b.mounted ∧ (b.mounted = true → u.2 = []) := by
    intro hp
    have h4 : b.fw.ui.sshAction = 4 := of_decide_eq_true (Bool.and_eq_true _ _ ▸ hp : _ ∧ _).1
    have h0 : r.1.fw.ui.usbDiskAction = 0 := by
      have husb := hb.pending.usb
      have heditor := hb.pending.editor
      rw [hr.fw, hk.usb]
      omega
    obtain ⟨hfw, hnone⟩ := usb_quiet toml (D := D) t ho h0
    rw [hU] at hfw hnone
    exact ⟨(congrArg (·.storage.isSome) hfw).trans hmr, fun hm => hnone (hmr.trans hm)⟩
  rw [hralong, haalong, ha.due, hr.due, hpassword]
  unfold Changes
  constructor
  · rintro ⟨h1, -, h3⟩ hw hm hchange
    by_cases hradio : b.fw.connects t.pass = true ∨ ((b.fw.radioStep t.pass).pollAutoJob t.pass).forgets = true
    · exact h1 ⟨hm, hradio⟩ hw
    · have hnone : r.2 = [] := by
        by_contra hne
        exact hradio (hr.due.mp hne).2
      rw [not_or] at hradio
      rw [forgets_of_not_connects (Bool.eq_false_iff.mpr hradio.1)] at hradio
      have hp := (hchange.resolve_left hradio.1).resolve_left hradio.2
      obtain ⟨hmu, hunone⟩ := hquiet hp
      refine h3 ⟨hmu.trans hm, hp⟩ ?_
      rw [hunone hm]
      exact hrisk.mpr ⟨hnone, hw⟩
  · intro h
    refine ⟨fun hdue hw => h hw hdue.1 ?_, (loads_spec present _ hu).1, fun hdue hw => ?_⟩
    · by_cases hc : b.fw.connects t.pass = true
      · exact Or.inl hc
      · have hoff : b.fw.connects t.pass = false := Bool.eq_false_iff.mpr hc
        exact Or.inr (Or.inl ((forgets_of_not_connects hoff).mp (hdue.2.resolve_left hc)))
    · obtain ⟨hmu, hunone⟩ := hquiet hdue.2
      have hm := hmu.symm.trans hdue.1
      rw [hunone hm] at hw
      exact h (hrisk.mp hw).2 hm (Or.inr (Or.inr hdue.2))

/-- A pass that runs the SSH server has the card mounted, and no USB command. -/
theorem serving_step {b : Device V} {t : Turn V} {r u a : Device V × List (Access V)} (hR : b.radio D toml t = r)
    (hU : r.1.usb D toml t = u) (hA : u.1.sshAction D toml t = a) (hb : b.fw.Ready) (hclosed : r.1.fw.SftpClosed)
    (ho : a.1.fw.owners.Single) (h : a.1.fw.sshActive = true) :
    a.1.mounted = true ∧ a.1.fw.network = true ∧ u.2 = [] := by
  have hr := (b.radio_spec D toml t).fw
  rw [hR] at hr
  obtain ⟨⟨load, hufw⟩, -⟩ := r.1.usb_spec D toml t
  rw [hU] at hufw
  obtain ⟨save, ha⟩ := u.1.sshAction_spec D toml t
  rw [hA] at ha
  have hro : r.1.fw.owners.Single := by
    rw [hr, (b.fw.keeps_radio t.pass).1.owners]
    exact hb.owners
  have h0 : r.1.fw.ui.usbDiskAction = 0 := by
    rw [ha.fw, hufw, hr] at h
    rw [hr]
    exact quiet_of_serving hb h
  obtain ⟨hfw, hnone⟩ := usb_quiet toml (D := D) t hro h0
  rw [hU] at hfw hnone
  have hm := ho.ssh_storage h
  refine ⟨hm, ho.ssh_network h, hnone ?_⟩
  have hcustody := (sshAction_custody { t.pass with save } (hfw ▸ hclosed)).1
  rw [← ha.fw, hfw] at hcustody
  exact (mounted_of_custody hcustody).symm.trans hm

/-- After the keys and the browser the device is ready for the commands, the radio's stage leaves the server's files closed, and
the card is where it was. -/
theorem commands_ready {d : Device V} {t : Turn V} {b r : Device V × List (Access V)} (hB : d.browse t = b)
    (hR : b.1.radio D toml t = r) (hrest : d.fw.AtRest) :
    Ready b.1.fw ∧ r.1.fw.SftpClosed ∧ b.1.mounted = d.mounted := by
  obtain ⟨hbfw, -⟩ := d.browse_spec t
  have hr := (b.1.radio_spec D toml t).fw
  rw [hB] at hbfw
  rw [hR] at hr
  obtain ⟨hcustody, hclosed, -⟩ := usbEntry_spec t.pass hrest
  have hentry : r.1.fw = usbEntry d.fw t.pass := by
    rw [hr, hbfw]
    rfl
  refine ⟨hbfw ▸ ready_browse t.pass hrest.settled, hentry ▸ hclosed, ?_⟩
  exact (mounted_of_custody (hr ▸ (radio_server b.1.fw t.pass).custody)).symm.trans (mounted_of_custody (hentry ▸ hcustody))

/-- No stage before the server's touches the key in memory. -/
theorem key_commands {d : Device V} {t : Turn V} {b r u a : Device V × List (Access V)} (hB : d.browse t = b)
    (hR : b.1.radio D toml t = r) (hU : r.1.usb D toml t = u) (hA : u.1.sshAction D toml t = a) : a.1.key = d.key := by
  obtain ⟨-, hbkey, -⟩ := d.browse_spec t
  have hrkey := (b.1.radio_spec D toml t).key
  obtain ⟨-, hukey, -⟩ := r.1.usb_spec D toml t
  obtain ⟨save, ha⟩ := u.1.sshAction_spec D toml t
  rw [hB] at hbkey
  rw [hR] at hrkey
  rw [hU] at hukey
  rw [hA] at ha
  exact (ha.key.trans hukey).trans (hrkey.trans hbkey)

/-- The commands can only take the host key's file away, and without a USB command they leave it. -/
theorem keyLost_commands {b : Device V} {t : Turn V} {r u a : Device V × List (Access V)} (hR : b.radio D toml t = r)
    (hU : r.1.usb D toml t = u) (hA : u.1.sshAction D toml t = a) :
    ((final (watch present) (final (watch present) (final (watch present) w r.2) u.2) a.2).keyLost = true → w.keyLost = true) ∧
      (u.2 = [] → (final (watch present) (final (watch present) (final (watch present) w r.2) u.2) a.2).keyLost = w.keyLost) := by
  have hr := (b.radio_spec D toml t).saves
  obtain ⟨-, -, hu, -⟩ := r.1.usb_spec D toml t
  obtain ⟨save, ha⟩ := u.1.sshAction_spec D toml t
  rw [hR] at hr
  rw [hU] at hu
  rw [hA] at ha
  have hradio := (saves_spec present w hr).2.2
  have husb := (loads_spec present (final (watch present) w r.2) hu).2
  rw [(saves_spec present (final (watch present) (final (watch present) w r.2) u.2) ha.saves).2.2]
  refine ⟨fun h => hradio ▸ husb h, fun hnone => ?_⟩
  rw [hnone]
  exact hradio

/-- The server's part of a pass keeps the owners. -/
theorem owners_serve (d : Device V) (t : Turn V) : (d.serve D t).1.fw.owners = d.fw.owners := by
  rw [(d.serve_spec D t).1, sshPoll_owners, (networkPoll_frame d.fw t.pass).1]

/-- What sparing the files asks of the stages of a pass. -/
theorem spares_iff {d : Device V} {w : Watch} {t : Turn V} {b s : Device V × List (Access V)} (hB : d.browse t = b)
    (hfw : (d.turn D toml t).1.fw = s.1.fw) : Spares D toml present (d, w) t ↔
      ((final (watch present) w b.2).AtRisk → d.mounted = true → ¬ b.1.fw.Changes t.pass) ∧
        ((final (watch present) w b.2).keyLost = true → s.1.fw.sshActive = true →
          ¬ (t.pass.linkUp = true ∨ t.accepts = true)) := by
  constructor
  · rintro ⟨h1, h2⟩
    dsimp only at h1 h2
    rw [hB] at h1 h2
    rw [hfw] at h2
    exact ⟨h1, h2⟩
  · rintro ⟨h1, h2⟩
    refine ⟨?_, ?_⟩
    · dsimp only
      rw [hB]
      exact h1
    · dsimp only
      rw [hB, hfw]
      exact h2

/-- A pass spares the files at risk exactly when its commands do. -/
theorem turn_step {x : Device V × Watch} (t : Turn V) (hx : Rests x) :
    (Along (watch present) Allowed x.2 (x.1.turn D toml t).2 ↔ Spares D toml present x t) ∧
      Rests (beside (turn D toml) (watch present) x t).1 := by
  obtain ⟨d, w⟩ := x
  obtain ⟨hrest, hkey⟩ := hx
  dsimp only at hrest hkey
  have hrest' : (d.turn D toml t).1.fw.AtRest := by
    obtain ⟨load, save, hpass⟩ := d.turn_pass D toml t
    rw [hpass]
    exact atRest_pass _ hrest
  obtain ⟨b, hB⟩ : ∃ b, d.browse t = b := ⟨_, rfl⟩
  obtain ⟨r, hR⟩ : ∃ r, b.1.radio D toml t = r := ⟨_, rfl⟩
  obtain ⟨u, hU⟩ : ∃ u, r.1.usb D toml t = u := ⟨_, rfl⟩
  obtain ⟨a, hA⟩ : ∃ a, u.1.sshAction D toml t = a := ⟨_, rfl⟩
  obtain ⟨s, hS⟩ : ∃ s, a.1.serve D t = s := ⟨_, rfl⟩
  have hturn := turn_eq D toml hB hR hU hA hS
  obtain ⟨hready, hclosed, hmounted⟩ := commands_ready toml hB hR hrest
  obtain ⟨halong, -, hlost⟩ := edits_spec present w (hB ▸ (d.browse_spec t).2.2)
  -- the server's part of the pass starts from the state that the commands leave
  have howners : s.1.fw.owners = a.1.fw.owners := hS ▸ owners_serve a.1 t
  have hactive : s.1.fw.sshActive = a.1.fw.sshActive := congrArg Owners.sshActive howners
  rw [hturn] at hrest'
  have hserving := serving_step toml hR hU hA hready hclosed (howners ▸ hrest'.settled.owners)
  obtain ⟨hkept, hsame⟩ := keyLost_commands present (final (watch present) w b.2) toml hR hU hA
  obtain ⟨hserve, hdue⟩ := serve_step present
    (final (watch present) (final (watch present) (final (watch present) (final (watch present) w b.2) r.2) u.2) a.2)
    (D := D) (t := t) (d := a.1) (fun h => ⟨(hserving h).1, (hserving h).2.1⟩)
    (fun h => (key_commands toml hB hR hU hA).symm ▸ hkey (hlost (hkept h)))
  rw [hS] at hserve hdue
  refine ⟨?_, ?_⟩
  · rw [spares_iff present toml hB (congrArg (fun x => x.1.fw) hturn), ← hmounted,
      ← config_step present (final (watch present) w b.2) toml hR hU hA hready, hactive]
    dsimp only
    rw [hturn]
    dsimp only
    rw [along_append, along_append, along_append, along_append, hserve]
    constructor
    · rintro ⟨-, h1, h2, h3, h4⟩
      exact ⟨⟨h1, h2, h3⟩, fun hw hon => h4 ((hsame (hserving hon).2.2).trans hw) hon⟩
    · rintro ⟨⟨h1, h2, h3⟩, h4⟩
      exact ⟨halong, h1, h2, h3, fun hw hon => h4 ((hsame (hserving hon).2.2).symm.trans hw) hon⟩
  · unfold beside
    dsimp only
    rw [hturn]
    refine ⟨hrest', ?_⟩
    dsimp only
    rw [final_append, final_append, final_append, final_append]
    exact hdue

/-- A boot allows every access, and leaves the state between two passes. -/
theorem boot_step (mounted radio : Bool) (card : V) :
    Along (watch present) Allowed {} (boot D toml mounted radio card).2 ∧
      Rests ((boot D toml mounted radio card).1, final (watch present) {} (boot D toml mounted radio card).2) := by
  cases mounted with
  | false => exact ⟨trivial, atRest_boot none radio {}, nofun⟩
  | true =>
    cases radio with
    | false =>
      refine ⟨⟨trivial, trivial⟩, atRest_boot (some ()) false _, fun hk => absurd hk ?_⟩
      show ¬ (Watch.see present {} (.load card (runOn (Storage.load D toml) card).1)).keyLost = true
      cases (runOn (Storage.load D toml) card).1 <;> exact Bool.false_ne_true
    | true =>
      refine ⟨⟨trivial, trivial, trivial⟩, atRest_boot (some ()) true _, fun hk => Or.inl ?_⟩
      obtain ⟨-, hk⟩ := (Bool.and_eq_true _ _ ▸ hk : _ ∧ _)
      show (match (runOn (Storage.readConfigFile D HOSTKEY_FILE 64) (runOn (Storage.load D toml) card).2).1 with
        | .ok bytes => ({ hostkey := if h : bytes.length = 32 then some ⟨bytes, h⟩ else none } : HostKey)
        | .error _ => {}).hostkey = none
      change (!keyRead (runOn (Storage.readConfigFile D HOSTKEY_FILE 64) (runOn (Storage.load D toml) card).2).1) = true
        at hk
      cases hr : (runOn (Storage.readConfigFile D HOSTKEY_FILE 64) (runOn (Storage.load D toml) card).2).1 with
      | error _ => rfl
      | ok bytes =>
        rw [hr] at hk
        exact dif_neg fun h => absurd hk (by simp [keyRead, h])

end UnreadableAux

open UnreadableAux

/-- In every boot, on any card, and in every run of the main loop after it, no save replaces a configuration or a host key that
could not be read, exactly when no pass connects to a network, forgets one or saves a password while the configuration is at risk,
nor runs the SSH server with a link or a client while the host key is. -/
theorem unreadable_spared_iff (D : ConfigVolume V) (toml : Toml) (present : V → Str → Bool) (mounted radio : Bool) (card : V)
    (turns : List (Turn V)) :
    Mealy.Along (Watch.watch present) Watch.Allowed {} ((boot D toml mounted radio card).2 ++
        (Mealy.outputs (turn D toml) (boot D toml mounted radio card).1 turns).flatten) ↔
      Mealy.Along (Mealy.beside (turn D toml) (Watch.watch present)) (Spares D toml present)
        ((boot D toml mounted radio card).1, Mealy.final (Watch.watch present) {} (boot D toml mounted radio card).2) turns := by
  obtain ⟨hboot, hrest⟩ := boot_step present toml (D := D) mounted radio card
  rw [Mealy.along_append, and_iff_right hboot, Mealy.along_flatten]
  exact Mealy.along_iff Rests (fun x t hx => ⟨(turn_step present toml t hx).1, fun _ => (turn_step present toml t hx).2⟩) hrest turns

/-- A library that reads any text as a configuration of a later version. -/
def laterToml : Toml where
  fromStr _ := some { version := 2 }
  toString _ := some ['-']

/-- A card with a configuration file. -/
def configCard : Faulty.Volume := { clusterSize := 4, chain := asBytes "new!".toList, size := 4 }

def quietTurn (pass : Pass Unit Unit) : Turn Faulty.Volume := { pass, random := ⟨List.replicate 32 0, rfl⟩ }

/-- Scan, choose the open network found, and connect to it. -/
def connectRun : List (Turn Faulty.Volume) :=
  [quietTurn (Firmware.keysPass [.arrow .down, .enter, .arrow .down, .enter] none),
    quietTurn (Firmware.keysPass [] (some [⟨"cafe", -50, .open, true⟩])),
    quietTurn (Firmware.keysPass [] (some [])),
    quietTurn { Firmware.keysPass [.enter] none with configure := true },
    quietTurn { Firmware.keysPass [] none with connect := true }]

/-- A file that could not be read is not always spared: a configuration of a later version is replaced by the defaults and the
new network at the first connection. -/
theorem not_always_spared :
    ¬ ∀ (D : ConfigVolume Faulty.Volume) (toml : Toml) (present : Faulty.Volume → Str → Bool) (mounted radio : Bool)
      (card : Faulty.Volume) (turns : List (Turn Faulty.Volume)),
      Mealy.Along (Watch.watch present) Watch.Allowed {} ((boot D toml mounted radio card).2 ++
        (Mealy.outputs (turn D toml) (boot D toml mounted radio card).1 turns).flatten) := by
  intro h
  exact absurd (h Faulty.volume laterToml (fun _ name => name = CONFIG_FILE) true true configCard connectRun) (by decide +kernel)

end Device

end Ratputer
