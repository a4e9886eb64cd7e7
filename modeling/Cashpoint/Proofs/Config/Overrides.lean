/-
# Files that override the defaults

A configuration file sets the fields that it names and no others (`Overrides`), in whatever
order and with whatever blanks it does so. The settings of different fields can be applied in
any order (`foldl_apply_perm`), which carries over from the settings to the files. What a file
gives can be written as an object of all seven fields, and is what that object gives.
-/

import Cashpoint.Config.Load
import Cashpoint.Proofs.Config.Objects
import Mathlib.Data.List.Nodup

namespace Cashpoint
namespace Config

/-- A field with the value that it has. -/
def setting (c : Config) : Field → Setting
  | .atmAddress => .atmAddress c.atmAddress
  | .relayAddress => .relayAddress c.relayAddress
  | .bankAddress => .bankAddress c.bankAddress
  | .cardDirectory => .cardDirectory c.cardDirectory
  | .requestTimeout => .requestTimeout c.requestTimeout
  | .maxRetries => .maxRetries c.maxRetries
  | .maxAttempts => .maxAttempts c.maxAttempts

/-- The defaults with exactly the fields of these settings replaced. -/
structure Overrides (settings : List Setting) (c : Config) : Prop where
  named : ∀ s ∈ settings, c.setting s.field = s
  others : ∀ field, field ∉ settings.map Setting.field → c.setting field = ({} : Config).setting field

/-- A file holds an object with these members. -/
def Holds (files : FileTree) (p : Path) (members : List Json.Member) : Prop :=
  ∃ text, files.read p = .ok (Utf8.encode text) ∧ IsObjectText members text

variable {files : FileTree} {p : Path} {settings : List Setting} {members : List Json.Member} {c d : Config}

/-! ## Settings that are applied -/

/-- A setting that was applied is set. -/
theorem setting_apply_field (c : Config) (s : Setting) : (s.apply c).setting s.field = s := by
  cases s <;> rfl

/-- Applying a setting leaves every other field as it is. -/
theorem setting_apply_of_ne {s : Setting} {field : Field} (h : field ≠ s.field) :
    (s.apply c).setting field = c.setting field := by
  cases s <;> cases field <;> first | rfl | exact absurd rfl h

/-- A field that no setting names keeps its value. -/
theorem setting_foldl_of_not_mem {field : Field} (h : field ∉ settings.map Setting.field) :
    (settings.foldl Setting.apply c).setting field = c.setting field := by
  induction settings generalizing c with
  | nil => rfl
  | cons s settings ih =>
    rw [List.map_cons, List.mem_cons, not_or] at h
    rw [List.foldl_cons, ih h.2, setting_apply_of_ne h.1]

/-- **Settings of different fields** all hold once they have been applied. -/
theorem setting_foldl_of_mem (hdistinct : (settings.map Setting.field).Nodup) {s : Setting} (h : s ∈ settings) :
    (settings.foldl Setting.apply c).setting s.field = s := by
  induction settings generalizing c with
  | nil => cases h
  | cons first settings ih =>
    rw [List.map_cons, List.nodup_cons] at hdistinct
    rw [List.foldl_cons]
    rcases List.mem_cons.1 h with rfl | h
    · rw [setting_foldl_of_not_mem hdistinct.1, setting_apply_field]
    · exact ih hdistinct.2 h

/-- Settings of different fields, applied one after the other, override the defaults. -/
theorem overrides_foldl (hdistinct : (settings.map Setting.field).Nodup) :
    Overrides settings (settings.foldl Setting.apply {}) :=
  ⟨fun _ hs => setting_foldl_of_mem hdistinct hs, fun _ hfield => setting_foldl_of_not_mem hfield⟩

/-- **The order of settings of different fields** does not matter. -/
theorem foldl_apply_perm {other : List Setting} (hdistinct : (settings.map Setting.field).Nodup)
    (h : other.Perm settings) (c : Config) : other.foldl Setting.apply c = settings.foldl Setting.apply c := by
  refine (h.symm.foldl_eq' (fun a ha b hb c => ?_) c).symm
  by_cases hfield : a.field = b.field
  · rw [List.inj_on_of_nodup_map hdistinct ha hb hfield]
  · exact Setting.apply_apply_comm c hfield

/-! ## Configurations that can be worked with -/

/-- A value other than the default has been set. -/
theorem Overrides.mem_iff (h : Overrides settings c) {s : Setting} (hdefault : ({} : Config).setting s.field ≠ s) :
    s ∈ settings ↔ c.setting s.field = s := by
  refine ⟨h.named s, fun hvalue => ?_⟩
  by_cases hfield : s.field ∈ settings.map Setting.field
  · obtain ⟨other, hother, hsame⟩ := List.mem_map.1 hfield
    have hnamed := h.named other hother
    rw [hsame, hvalue] at hnamed
    exact hnamed ▸ hother
  · exact absurd ((h.others _ hfield).symm.trans hvalue) hdefault

/-- The timeout is zero only if it was set to that. -/
theorem Overrides.requestTimeout_eq_zero_iff (h : Overrides settings c) :
    c.requestTimeout = 0 ↔ .requestTimeout 0 ∈ settings := by
  rw [h.mem_iff (by decide)]
  exact Setting.requestTimeout.injEq c.requestTimeout 0 ▸ Iff.rfl

/-- The number of attempts is zero only if it was set to that. -/
theorem Overrides.maxAttempts_eq_zero_iff (h : Overrides settings c) :
    c.maxAttempts = 0 ↔ .maxAttempts 0 ∈ settings := by
  rw [h.mem_iff (by decide)]
  exact Setting.maxAttempts.injEq c.maxAttempts 0 ▸ Iff.rfl

/-- A configuration is valid if neither the timeout nor the number of attempts is zero. -/
theorem validate_eq_ok_iff : c.validate = .ok d ↔ c.requestTimeout ≠ 0 ∧ c.maxAttempts ≠ 0 ∧ c = d := by
  unfold validate
  split
  · simp_all
  · split <;> simp_all

/-- One with a zero there is refused with a message. -/
theorem validate_eq_error (h : c.requestTimeout = 0 ∨ c.maxAttempts = 0) :
    ∃ message, c.validate = .error (.configuration message) := by
  unfold validate
  split
  · exact ⟨_, rfl⟩
  · rw [if_pos (by simp_all)]
    exact ⟨_, rfl⟩

/-! ## Files -/

/-- A file whose text cannot be read as a configuration is refused as such. -/
theorem load_of_error {text : String} {fault : JsonFault} (hread : files.read p = .ok (Utf8.encode text))
    (h : ofJson text = .error fault) : load files p = .error (.serialization fault) := by
  simp [load, hread, ofBytes, Utf8.decode?_encode, h]

/-- A file whose text can be read is loaded if the configuration is valid. -/
theorem load_of_ok {text : String} (hread : files.read p = .ok (Utf8.encode text)) (h : ofJson text = .ok c) :
    load files p = c.validate := by
  simp [load, hread, ofBytes, Utf8.decode?_encode, h]

/-- **A file with settings of different fields** gives the defaults with these applied, if they can be worked with. -/
theorem load_sets (hdistinct : (settings.map Setting.field).Nodup) (hsets : Sets members settings)
    (hholds : Holds files p members) : load files p = (settings.foldl Setting.apply {}).validate := by
  obtain ⟨text, hread, hobject⟩ := hholds
  exact load_of_ok hread (ofJson_sets hdistinct hsets hobject)

/-- What has been loaded can be worked with. -/
theorem validate_of_load (h : load files p = .ok c) : c.validate = .ok c := by
  unfold load at h
  split at h
  · cases h
  · unfold ofBytes at h
    split at h
    · cases h
    · split at h
      · cases h
      · obtain ⟨htimeout, hattempts, rfl⟩ := validate_eq_ok_iff.1 h
        exact h

/-- The settings of a configuration are of different fields. -/
theorem nodup_settings (c : Config) : (c.settings.map Setting.field).Nodup := nodup_all

/-- **All fields of a configuration** in a file, in any order, give that configuration. -/
theorem load_settings (hvalid : c.validate = .ok c) (hperm : settings.Perm c.settings) (hsets : Sets members settings)
    (hholds : Holds files p members) : load files p = .ok c := by
  have hdistinct : (settings.map Setting.field).Nodup := (hperm.map Setting.field).nodup_iff.2 (nodup_settings c)
  rw [load_sets hdistinct hsets hholds, foldl_apply_perm (nodup_settings c) hperm, foldl_apply_settings, hvalid]

/-- **A configuration file overrides exactly the fields that it names.**

1. Members that set different fields, none of them to a zero that cannot be worked with, give the defaults with these
fields replaced, and the same in any other order.
2. One more member, with a name of no field or of a field that is set, makes the file no configuration.
3. A request timeout or a number of attempts of zero makes it one that cannot be worked with.
4. Whatever has been loaded, written back as an object of all fields, is loaded again. -/
theorem load_overrides (files : FileTree) (p : Path) :
    (∀ settings, (settings.map Setting.field).Nodup →
      (∀ members, Sets members settings → Holds files p members →
        .requestTimeout 0 ∉ settings → .maxAttempts 0 ∉ settings →
        ∃ c, load files p = .ok c ∧ Overrides settings c ∧
          ∀ files' p' settings' members', settings'.Perm settings → Sets members' settings' →
            Holds files' p' members' → load files' p' = .ok c) ∧
      (∀ before extra after, Sets (before ++ after) settings → Json.IsValue extra.value →
        (∀ field : Field, field.name ≠ extra.name) ∨ extra.name ∈ (before ++ after).map Json.Member.name →
        Holds files p (before ++ extra :: after) → ∃ fault, load files p = .error (.serialization fault)) ∧
      ∀ members, Sets members settings → Holds files p members →
        .requestTimeout 0 ∈ settings ∨ .maxAttempts 0 ∈ settings →
        ∃ message, load files p = .error (.configuration message)) ∧
    ∀ c, load files p = .ok c → ∀ files' p',
      (files'.read p' = .ok (Utf8.encode c.toJson) → load files' p' = .ok c) ∧
      ∀ settings' members', settings'.Perm c.settings → Sets members' settings' → Holds files' p' members' →
        load files' p' = .ok c := by
  refine ⟨fun settings hdistinct => ?_, fun c hload files' p' => ⟨fun hread => ?_, ?_⟩⟩
  · have hover := overrides_foldl hdistinct
    refine ⟨fun members hsets hholds htimeout hattempts => ?_, fun before extra after hsets hvalue hextra hholds => ?_,
      fun members hsets hholds hzero => ?_⟩
    · have hvalid : (settings.foldl Setting.apply {}).validate = .ok (settings.foldl Setting.apply {}) :=
        validate_eq_ok_iff.2
          ⟨mt hover.requestTimeout_eq_zero_iff.1 htimeout, mt hover.maxAttempts_eq_zero_iff.1 hattempts, rfl⟩
      refine ⟨_, (load_sets hdistinct hsets hholds).trans hvalid, hover, ?_⟩
      intro files' p' settings' members' hperm hsets' hholds'
      have hdistinct' : (settings'.map Setting.field).Nodup := (hperm.map Setting.field).nodup_iff.2 hdistinct
      rw [load_sets hdistinct' hsets' hholds', foldl_apply_perm hdistinct hperm, hvalid]
    · obtain ⟨text, hread, hobject⟩ := hholds
      obtain ⟨fault, hfault⟩ := ofJson_extra hdistinct hsets hvalue hextra hobject
      exact ⟨fault, load_of_error hread hfault⟩
    · obtain ⟨message, herror⟩ := validate_eq_error
        (hzero.imp hover.requestTimeout_eq_zero_iff.2 hover.maxAttempts_eq_zero_iff.2)
      exact ⟨message, (load_sets hdistinct hsets hholds).trans herror⟩
  · exact load_settings (validate_of_load hload) (.refl _) (sets_written c.settings)
      ⟨c.toJson, hread, isObjectText_objectOf c.settings⟩
  · exact fun settings' members' hperm hsets hholds => load_settings (validate_of_load hload) hperm hsets hholds

/-- A file with an escape and with blanks at every place, the same with one member more, one with a zero, and the first
written back. -/
theorem load_overrides_escaped :
    let file (text : String) := ({} : FileTree).put ["c"] (.file (Utf8.encode text))
    (∃ c, load (file "\x7b \"card_dir\" :\n\"\\u0061\"\t\x7d") ⟨"c"⟩ = .ok c ∧ Overrides [.cardDirectory ⟨"a"⟩] c ∧
      load (file c.toJson) ⟨"c"⟩ = .ok c) ∧
    (∃ fault, load (file "\x7b\"card_dir\":null, \"card_dir\" :\n\"\\u0061\"\t\x7d") ⟨"c"⟩ =
      .error (.serialization fault)) ∧
    ∃ message, load (file (objectOf [.maxAttempts 0])) ⟨"c"⟩ = .error (.configuration message) := by
  intro file
  let card : Json.Member := ⟨"card_dir", "\"\\u0061\"".toList⟩
  let extra : Json.Member := ⟨"card_dir", "null".toList⟩
  have hread (text : String) : (file text).read ⟨"c"⟩ = .ok (Utf8.encode text) := by rfl
  have hnone : Json.Blanks [] := by decide
  have hcard : card.IsWritten " \"card_dir\" :\n\"\\u0061\"\t".toList :=
    ⟨[' '], (Json.quote "card_dir").toList, [' '], "\n\"\\u0061\"\t".toList, by decide, Json.isString_quote _,
      by decide, ⟨['\n'], ['\t'], by decide, by decide, by rfl⟩, by rfl⟩
  have hextra : extra.IsWritten "\"card_dir\":null".toList :=
    ⟨[], (Json.quote "card_dir").toList, [], "null".toList, hnone, Json.isString_quote _, hnone,
      ⟨[], [], hnone, hnone, by rfl⟩, by rfl⟩
  have hunit : Json.IsUnit "0061".toList 'a'.toNat := ⟨by rfl, List.all_eq_true.1 (by rfl), by rfl⟩
  have hspells : Json.Spells ('\\' :: 'u' :: ("0061".toList ++ [])) "a".toList := Json.Spells.unit hunit .nil
  have hsets : Sets [card] [.cardDirectory ⟨"a"⟩] := .cons ⟨rfl, _, hspells, by rfl⟩ .nil
  have hfirst : Holds (file "\x7b \"card_dir\" :\n\"\\u0061\"\t\x7d") ⟨"c"⟩ [card] :=
    ⟨_, hread _, _, ⟨_, .cons hcard .nil, [], hnone, rfl⟩, [], [], hnone, hnone, by rfl⟩
  have hmore : Holds (file "\x7b\"card_dir\":null, \"card_dir\" :\n\"\\u0061\"\t\x7d") ⟨"c"⟩ [extra, card] :=
    ⟨_, hread _, _, ⟨_, .cons hextra (.cons hcard .nil), [], hnone, rfl⟩, [], [], hnone, hnone, by rfl⟩
  have hzero : Holds (file (objectOf [.maxAttempts 0])) ⟨"c"⟩ _ := ⟨_, hread _, isObjectText_objectOf [.maxAttempts 0]⟩
  obtain ⟨c, hload, hover, -⟩ := ((load_overrides _ _).1 _ (by decide)).1 _ hsets hfirst (by decide) (by decide)
  refine ⟨⟨c, hload, hover, ((load_overrides _ _).2 c hload _ _).1 (hread _)⟩, ?_, ?_⟩
  · exact ((load_overrides _ _).1 _ (by decide)).2.1 [] extra [card] hsets (.word (by decide)) (.inr (by decide)) hmore
  · exact ((load_overrides _ _).1 _ (by decide)).2.2 _ (sets_written _) hzero (by decide)

end Config
end Cashpoint
