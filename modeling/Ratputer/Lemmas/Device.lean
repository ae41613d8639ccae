import Ratputer.Device
import Ratputer.Theorems.UsbScreen

/-!
# What the stages of a pass do with the small files

Each stage moves the firmware as the main loop's own stage does, and makes the accesses that its guards say.
-/

namespace Ratputer

open Firmware SingleUserAux

namespace Firmware

variable {V C : Type} {s : Firmware V C} {p : Pass V C}

/-- The radio connects, or a saved network is forgotten, or the password editor has a password to save: what a pass that has
handled its keys so is about to do to the saved configuration. -/
def Changes (s : Firmware V C) (p : Pass V C) : Prop :=
  s.connects p = true ∨
    (s.ui.wifiAction = 5 ∧ (s.autoJob = none ∨ p.autoFinished ≠ none) ∧
      s.ui.wifiActionIndex < s.wifiConfig.networks.length) ∨
    s.hasPassword = true

/-- A radio step that makes no connection leaves the saved networks and the waiting command. -/
theorem radioStep_of_not_connects (h : s.connects p = false) :
    (s.radioStep p).wifiConfig = s.wifiConfig ∧ (s.radioStep p).autoJob = s.autoJob ∧
      (s.radioStep p).ui.wifiActionIndex = s.ui.wifiActionIndex := by
  unfold connects at h
  unfold radioStep
  split
  · exact ⟨rfl, rfl, rfl⟩
  · split_ifs
    · exact ⟨rfl, rfl, rfl⟩
    · split <;> exact ⟨rfl, rfl, rfl⟩
    · split <;> exact ⟨rfl, rfl, rfl⟩
  · rename_i network attempt hpending
    rw [hpending] at h
    split_ifs with hw hc
    · exact ⟨rfl, rfl, rfl⟩
    · simp_all
    · exact ⟨rfl, rfl, rfl⟩
    · exact ⟨rfl, rfl, rfl⟩

theorem pollAutoJob_config (s : Firmware V C) (p : Pass V C) : (s.pollAutoJob p).wifiConfig = s.wifiConfig := by
  unfold pollAutoJob retrySavedNetwork
  split
  · rfl
  · dsimp only
    split_ifs <;> rfl
  · rfl

/-- Without a connection, the Wi-Fi command forgets what it would have forgotten before the radio step. -/
theorem forgets_of_not_connects (h : s.connects p = false) :
    ((s.radioStep p).pollAutoJob p).forgets = true ↔
      s.ui.wifiAction = 5 ∧ (s.autoJob = none ∨ p.autoFinished ≠ none) ∧
        s.ui.wifiActionIndex < s.wifiConfig.networks.length := by
  obtain ⟨hconfig, hjob, hindex⟩ := radioStep_of_not_connects h
  obtain ⟨-, haction, -⟩ := s.keeps_radioStep p
  obtain ⟨hui, -, -, -, hpoll⟩ := (s.radioStep p).pollAutoJob_frame p
  unfold forgets
  rw [hui, pollAutoJob_config, hconfig, haction, hindex, Bool.and_eq_true, Bool.and_eq_true, decide_eq_true_eq,
    decide_eq_true_eq, Option.isNone_iff_eq_none, hpoll, hjob, and_assoc]

/-- The keys and the browser hand over a ready state. -/
theorem ready_browse {s : Firmware V C} (p : Pass V C) (h : s.Settled) :
    Ready ((s.handleInput p).1.leaveSsh.browser p).1 := by
  have hk := s.keeps_handleInput p
  have hpend : (s.handleInput p).1.ui.Pending := by
    have hssh : s.ui.sshAction = 0 := h.ssh
    refine hk.pending ⟨fun hu => absurd h.usb hu, fun hs => ?_, fun hs => ?_, fun hv => Or.inr (h.wifi hv)⟩
    · exact absurd (hssh.symm.trans hs) (by decide)
    · have hs : 3 ≤ s.ui.sshAction := hs
      omega
  have ho : (s.handleInput p).1.owners.Single := hk.owners ▸ h.owners
  obtain ⟨hlo, hlui, hlact, -⟩ := leaveSsh_spec ho
  exact (browser_ready p hlo (hlui ▸ hpend) fun ha => (congrArg MainWindow.viewState hlui).trans (hlact ha)).1

/-- A stopped server stays so, unless a command starts it. -/
theorem sshAction_inactive {s : Firmware V C} (p : Pass V C) (hoff : s.sshActive = false)
    (ha : s.ui.sshAction = 0 ∨ s.ui.sshAction = 2) : (s.sshAction p).sshActive = false := by
  unfold sshAction
  dsimp only
  rcases ha with ha | ha
  · rw [ha]
    exact hoff
  · rw [ha]
    exact stopSsh_inactive _

/-- A pass that ends with the SSH server running has no USB command to carry out, and finds the card mounted. -/
theorem quiet_of_serving {b : Firmware V C} {load save : Pass V C} (hb : b.Ready)
    (h : (((b.radio p).usb load).1.sshAction save).sshActive = true) :
    (b.radio p).ui.usbDiskAction = 0 := by
  by_contra hne
  obtain ⟨hk, -⟩ := b.keeps_radio p
  have h7 : b.viewState = 7 := hb.pending.usb (by rw [← hk.usb]; exact hne)
  obtain ⟨-, hssh, -, hserver, -⟩ := usb_frame (b.radio p) load
  have hoff : ((b.radio p).usb load).1.sshActive = false := by
    have hb8 : b.sshActive = false := Bool.eq_false_iff.mpr fun ha => absurd (h7.symm.trans (hb.ssh ha)) (by decide)
    unfold sshActive
    rw [hserver]
    exact (congrArg Owners.sshActive hk.owners).trans hb8
  have haction : b.ui.sshAction = 0 ∨ b.ui.sshAction = 2 := by
    have hstart := hb.pending.start
    have heditor := hb.pending.editor
    unfold viewState at h7
    omega
  rw [← hk.ssh, ← hssh] at haction
  exact absurd ((sshAction_inactive save hoff haction).symm.trans h) Bool.false_ne_true

/-- The SSH server's poll leaves the owners alone. -/
theorem sshPoll_owners (s : Firmware V C) (p : Pass V C) : (s.sshPoll p).1.owners = s.owners := by
  unfold sshPoll
  rcases hs : s.sshServer with _ | server
  · rfl
  · dsimp only
    split_ifs <;> simp_all [owners, sshActive]

/-- The USB command leaves the password editor alone. -/
theorem usb_hasPassword (s : Firmware V C) (p : Pass V C) : (s.usb p).1.hasPassword = s.hasPassword := by
  have hattach : ∀ s : Firmware V C, (s.usbAttach p).ui = s.ui := by
    intro s
    rcases usbAttach_cases s p with h | ⟨v, -, h⟩ | ⟨c, -, h⟩ <;> rw [h]
  have hdetach : ∀ s : Firmware V C, (s.usbDetach p).hasPassword = s.hasPassword := by
    intro s
    unfold usbDetach
    split
    · rfl
    · split_ifs <;> rfl
  unfold usb
  dsimp only
  split_ifs
  · unfold hasPassword
    rw [hattach]
  · rw [hdetach]
    rfl
  · rfl

/-- The radio's part of a pass leaves the password editor alone. -/
theorem radio_hasPassword (s : Firmware V C) (p : Pass V C) : (s.radio p).hasPassword = s.hasPassword := by
  unfold hasPassword
  rw [(s.keeps_radio p).1.ssh, (radio_server s p).password]

/-- The stages of a pass, each with the answers that it reads. -/
theorem pass_answered (s : Firmware V C) (p : Pass V C) (load : LoadResult) (save : Bool) :
    (s.pass { p with load, save }).1 =
      (((((((s.handleInput p).1.leaveSsh.browser p).1.radio p).usb { p with load }).1.sshAction { p with save }).networkPoll
        p).sshPoll p).1 := by
  have hkeys : s.handleInput { p with load, save } = s.handleInput p := rfl
  have hbrowser : ∀ s : Firmware V C, s.browser { p with load, save } = s.browser p := fun _ => rfl
  have hradio : ∀ s : Firmware V C, s.radio { p with load, save } = s.radio p := fun _ => rfl
  have husb : ∀ s : Firmware V C, s.usb { p with load, save } = s.usb { p with load } := fun _ => rfl
  have hssh : ∀ s : Firmware V C, s.sshAction { p with load, save } = s.sshAction { p with save } := fun _ => rfl
  have hnetwork : ∀ s : Firmware V C, s.networkPoll { p with load, save } = s.networkPoll p := fun _ => rfl
  have hpoll : ∀ s : Firmware V C, s.sshPoll { p with load, save } = s.sshPoll p := fun _ => rfl
  simp only [pass, serve, hkeys, hbrowser, hradio, husb, hssh, hnetwork, hpoll]

end Firmware

namespace Device

variable {V : Type} (D : ConfigVolume V) (toml : Toml) (d : Device V) (t : Turn V)

/-- A save of the configuration. -/
def IsSave (a : Access V) : Prop := ∃ card file, a = .save card file

/-- What a stage that may save the configuration does: the firmware's part of it, and a save exactly when it is due. -/
structure Saves (d : Device V) (r : Device V × List (Access V)) (fw : Firmware Unit Unit) (due : Prop) : Prop where
  fw : r.1.fw = fw
  key : r.1.key = d.key
  saves : ∀ a ∈ r.2, IsSave a
  due : r.2 ≠ [] ↔ d.mounted = true ∧ due

theorem save_accesses : (d.save D toml).2.2 = if d.mounted then [.save d.card d.file] else [] := by
  unfold save
  split_ifs <;> rfl

/-- The accesses of a save after a step that leaves the card where it is. -/
theorem saves_save {d : Device V} (d' : Device V) (hm : d'.mounted = d.mounted) :
    (∀ a ∈ (d'.save D toml).2.2, IsSave a) ∧ ((d'.save D toml).2.2 ≠ [] ↔ d.mounted = true ∧ True) := by
  rw [save_accesses, hm]
  split_ifs with h
  · exact ⟨fun a ha => ⟨_, _, List.mem_singleton.mp ha⟩, by simp [h]⟩
  · exact ⟨nofun, by simp [h]⟩

theorem mounted_of_custody {d d' : Device V} (h : d'.fw.custody = d.fw.custody) : d'.mounted = d.mounted :=
  congrArg (fun c => c.1.isSome) h

/-- Keys and the browser: another use of the card, or none. -/
theorem browse_spec :
    (d.browse t).1.fw = ((d.fw.handleInput t.pass).1.leaveSsh.browser t.pass).1 ∧ (d.browse t).1.key = d.key ∧
      ∀ a ∈ (d.browse t).2, ∃ card, a = .edit card := by
  unfold browse guarded edit
  dsimp only
  split_ifs
  · exact ⟨rfl, rfl, fun a ha => ⟨_, List.mem_singleton.mp ha⟩⟩
  · exact ⟨rfl, rfl, nofun⟩

theorem radioStep_spec :
    Saves d (d.radioStep D toml t) (d.fw.radioStep t.pass) (d.fw.connects t.pass = true) := by
  unfold radioStep
  dsimp only
  split_ifs with hc
  · obtain ⟨h1, h2⟩ := saves_save D toml { d with fw := d.fw.radioStep t.pass }
      (mounted_of_custody (d := d) (radioStep_server d.fw t.pass).custody)
    exact ⟨rfl, rfl, h1, h2.trans (by simp [hc])⟩
  · exact ⟨rfl, rfl, nofun, by simp [hc]⟩

theorem wifiAction_spec :
    Saves d (d.wifiAction D toml t) (d.fw.wifiAction t.pass) (d.fw.forgets = true) := by
  unfold wifiAction
  dsimp only
  split_ifs with hc
  · obtain ⟨h1, h2⟩ := saves_save D toml { d with fw := d.fw.wifiAction t.pass }
      (mounted_of_custody (d := d) (wifiAction_server d.fw t.pass).custody)
    exact ⟨rfl, rfl, h1, h2.trans (by simp [hc])⟩
  · exact ⟨rfl, rfl, nofun, by simp [hc]⟩

/-- The radio's part of a pass saves after a connection, and after forgetting a network. -/
theorem radio_spec :
    Saves d (d.radio D toml t) (d.fw.radio t.pass)
      (d.fw.connects t.pass = true ∨ ((d.fw.radioStep t.pass).pollAutoJob t.pass).forgets = true) := by
  have h1 := d.radioStep_spec D toml t
  have h2 := ((d.radioStep D toml t).1.pollAutoJob t).wifiAction_spec D toml t
  have hfw : ((d.radioStep D toml t).1.pollAutoJob t).fw = (d.fw.radioStep t.pass).pollAutoJob t.pass :=
    congrArg (Firmware.pollAutoJob · t.pass) h1.fw
  have hm : ((d.radioStep D toml t).1.pollAutoJob t).mounted = d.mounted := by
    refine mounted_of_custody ?_
    rw [hfw]
    exact ((radioStep_server d.fw t.pass).trans (pollAutoJob_server _ t.pass)).custody
  have haccesses : (d.radio D toml t).2 =
      (d.radioStep D toml t).2 ++ (((d.radioStep D toml t).1.pollAutoJob t).wifiAction D toml t).2 := by
    unfold radio andThen
    dsimp only
    rw [List.append_nil]
  refine ⟨?_, h2.key.trans h1.key, fun a ha => ?_, ?_⟩
  · show Firmware.autoConnect (((d.radioStep D toml t).1.pollAutoJob t).wifiAction D toml t).1.fw t.pass
      ((d.radioStep D toml t).1.pollAutoJob t).fw.ui.wifiAction = _
    rw [h2.fw, hfw]
    rfl
  · rw [haccesses] at ha
    exact (List.mem_append.mp ha).elim (h1.saves a) (h2.saves a)
  · have hdue := h2.due
    rw [hm, hfw] at hdue
    rw [haccesses, Ne, List.append_eq_nil_iff, not_and_or, ← Ne, ← Ne, h1.due, hdue, and_or_left]

theorem host_spec :
    (d.host t).1.fw = d.fw ∧ (d.host t).1.key = d.key ∧ (∀ a ∈ (d.host t).2, ∃ card, a = .edit card) ∧
      (d.fw.usbSd = none → (d.host t).2 = []) := by
  unfold host guarded
  split_ifs with hsd
  · exact ⟨rfl, rfl, fun a ha => ⟨_, List.mem_singleton.mp ha⟩, fun h => absurd (h ▸ hsd) nofun⟩
  · exact ⟨rfl, rfl, nofun, fun _ => rfl⟩

theorem usbAction_spec :
    (∃ load, (d.usbAction D toml t).1.fw = (d.fw.usb { t.pass with load }).1) ∧ (d.usbAction D toml t).1.key = d.key ∧
      (∀ a ∈ (d.usbAction D toml t).2, ∃ card result, a = .load card result) ∧
      (d.fw.usbSd = none → (d.usbAction D toml t).2 = []) := by
  unfold usbAction
  dsimp only
  split_ifs with hr
  · refine ⟨⟨_, rfl⟩, rfl, fun a ha => ⟨_, _, List.mem_singleton.mp ha⟩, fun hsd => ?_⟩
    unfold remounts at hr
    simp [hsd] at hr
  · exact ⟨⟨t.pass.load, rfl⟩, rfl, nofun, fun _ => rfl⟩

/-- The USB stage reads the configuration at most, and does nothing to a card that it does not have. -/
theorem usb_spec :
    (∃ load, (d.usb D toml t).1.fw = (d.fw.usb { t.pass with load }).1) ∧ (d.usb D toml t).1.key = d.key ∧
      (∀ a ∈ (d.usb D toml t).2, (∃ card, a = .edit card) ∨ ∃ card result, a = .load card result) ∧
      (d.fw.usbSd = none → (d.usb D toml t).2 = []) := by
  obtain ⟨hfw, hkey, hedits, hquiet⟩ := d.host_spec t
  obtain ⟨⟨load, hload⟩, hkey', hloads, hquiet'⟩ := (d.host t).1.usbAction_spec D toml t
  refine ⟨⟨load, hload.trans (by rw [hfw])⟩, hkey'.trans hkey, fun a ha => ?_, fun hsd => ?_⟩
  · exact (List.mem_append.mp ha).imp (hedits a) (hloads a)
  · show (d.host t).2 ++ _ = []
    rw [hquiet hsd, hquiet' (by rw [hfw, hsd])]
    rfl

/-- The SSH command saves a new password. -/
theorem sshAction_spec :
    ∃ save, Saves d (d.sshAction D toml t) (d.fw.sshAction { t.pass with save }) (d.fw.hasPassword = true) := by
  unfold sshAction
  dsimp only
  split_ifs with hp
  · obtain ⟨h1, h2⟩ := saves_save D toml { d with fw := d.fw.withPassword } (d := d) rfl
    exact ⟨_, rfl, rfl, h1, h2.trans (by simp [hp])⟩
  · exact ⟨t.pass.save, rfl, rfl, nofun, by simp [hp]⟩

/-- A key is due on the card: there is none yet, or one that waits. -/
def Due (key : HostKey) : Prop := key.hostkey = none ∨ key.unsavedSeed ≠ none

/-- Ensuring a key writes one that is due, where the card is mounted. -/
theorem ensureHostkey_spec (random : Seed) :
    (d.ensureHostkey D random).1.fw = d.fw ∧ (∀ a ∈ (d.ensureHostkey D random).2, ∃ card seed, a = .saveKey card seed) ∧
      (Due d.key → d.mounted = true → (d.ensureHostkey D random).2 ≠ []) ∧
      (Due d.key → d.mounted = false → Due (d.ensureHostkey D random).1.key) := by
  unfold ensureHostkey Due
  dsimp only
  rcases hk : d.key.hostkey with _ | key
  · rcases hm : d.mounted with _ | _
    · exact ⟨rfl, nofun, fun _ => nofun, fun _ _ => Or.inr nofun⟩
    · exact ⟨rfl, fun a ha => ⟨_, _, List.mem_singleton.mp ha⟩, fun _ _ => by simp, fun _ => nofun⟩
  · rw [if_neg (show ¬ (some key).isNone = true from nofun)]
    rcases hu : d.key.unsavedSeed with _ | seed
    · exact ⟨rfl, nofun, fun hdue => absurd hdue (by simp), fun hdue => absurd hdue (by simp)⟩
    · rcases hm : d.mounted with _ | _
      · exact ⟨rfl, nofun, fun _ => nofun, fun _ _ => Or.inr (by simp [hu])⟩
      · exact ⟨rfl, fun a ha => ⟨_, _, List.mem_singleton.mp ha⟩, fun _ _ => by simp, fun _ => nofun⟩

/-- A guarded stage keeps of the firmware what the stage keeps. -/
theorem guarded_fw {c : Bool} {stage : Device V → Device V × List (Access V)} (h : (stage d).1.fw = d.fw) :
    (guarded c stage d).1.fw = d.fw := by
  unfold guarded
  split_ifs
  · exact h
  · rfl

/-- The server's poll: the firmware's part of it; without a running server nothing is accessed. -/
theorem serve_spec :
    (d.serve D t).1.fw = ((d.fw.networkPoll t.pass).sshPoll t.pass).1 ∧
      (d.fw.sshActive = false → (d.serve D t).2 = [] ∧ (d.serve D t).1.key = d.key) := by
  obtain ⟨howners, -⟩ := networkPoll_frame d.fw t.pass
  have hactive : (d.fw.networkPoll t.pass).sshActive = d.fw.sshActive := congrArg Owners.sshActive howners
  unfold serve
  dsimp only
  rw [hactive]
  split_ifs with h
  · refine ⟨?_, fun hoff => by simp [hoff] at h⟩
    unfold andThen edit
    dsimp only
    rw [guarded_fw _ (ensureHostkey_spec D _ t.random).1, guarded_fw _ (ensureHostkey_spec D _ t.random).1]
  · exact ⟨rfl, fun _ => ⟨rfl, rfl⟩⟩

/-- A pass from its stages: `b` the keys and the browser, `r` the radio, `u` USB, `a` the SSH command, `s` the server. -/
theorem turn_eq {d : Device V} {t : Turn V} {b r u a s : Device V × List (Access V)} (hb : d.browse t = b)
    (hr : b.1.radio D toml t = r) (hu : r.1.usb D toml t = u) (ha : u.1.sshAction D toml t = a)
    (hs : a.1.serve D t = s) : d.turn D toml t = (s.1, b.2 ++ (r.2 ++ (u.2 ++ (a.2 ++ s.2)))) := by
  subst hb hr hu ha hs
  simp only [turn, andThen]

/-- A pass moves the firmware as the main loop does, with the answers that the card has given. -/
theorem turn_pass : ∃ load save, (d.turn D toml t).1.fw = (d.fw.pass { t.pass with load, save }).1 := by
  obtain ⟨hb, -⟩ := d.browse_spec t
  have hr := (d.browse t).1.radio_spec D toml t
  obtain ⟨⟨load, hu⟩, -⟩ := ((d.browse t).1.radio D toml t).1.usb_spec D toml t
  obtain ⟨save, ha⟩ := (((d.browse t).1.radio D toml t).1.usb D toml t).1.sshAction_spec D toml t
  obtain ⟨hs, -⟩ := ((((d.browse t).1.radio D toml t).1.usb D toml t).1.sshAction D toml t).1.serve_spec D t
  refine ⟨load, save, hs.trans ?_⟩
  rw [ha.fw, hu, hr.fw, hb]
  exact (pass_answered d.fw t.pass load save).symm

end Device

end Ratputer
