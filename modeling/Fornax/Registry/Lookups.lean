import Fornax.Registry.Steps

namespace Fornax.Registry

open Files Manifest Fallible Std.Do

set_option mvcgen.warning false

variable {c : Formats} {bytes : Bytes} {w₀ : World Dir}

theorem deserializeUnique_eq_ok {malformed trailing : RegistryError} {value : Json} :
    deserializeUnique c bytes malformed trailing = .ok value ↔
      ∃ tree, c.fromSlice bytes = some (tree, true) ∧ uniqueValue tree = some value := by
  unfold deserializeUnique
  split
  · simp_all
  · next tree atEnd htree =>
    rw [htree]
    split
    · simp_all
    · split_ifs <;> simp_all

structure Pinned (c : Formats) (id : String) (row : WireEntry) (bytes : Bytes) (d : Disk Dir) :
    Prop where
  home : d.dirs .home = true
  adapters : d.dirs .adapters = true
  found : ∃ st, indexState c d = .ok st ∧ st.entries.find? (·.id == id) = some row
  owned : d.contents row.manifestFile = some bytes
  digest : digest c bytes = row.digest

variable {id : String} {row : WireEntry}

@[spec]
theorem readPinnedDescriptor_spec {maxBytes : ℕ} (hcalm : w₀.Calm)
    (hpinned : Pinned c id row bytes w₀.disk) (hmax : bytes.length ≤ maxBytes) :
    ⦃fun w => ⌜w = w₀⌝⦄ readPinnedDescriptor c id row.kindOr maxBytes
    ⦃post⟨fun r _ => ⌜r = (publicEntry row, bytes)⌝, fun _ _ => ⌜False⌝⟩⦄ := by
  obtain ⟨hhome, hadapters, ⟨st, hstate, hrow⟩, howned, hdigest⟩ := hpinned
  have hmem := List.mem_of_find?_eq_some hrow
  mvcgen [readPinnedDescriptor, readState] with subst_vars
  all_goals grind [World.Quiet, publicEntry]

theorem checkConfig_eq_ok (h : checkConfig c id bytes = .ok ()) :
    bytes.length ≤ maxConfigManifestBytes ∧ validId id .configV1 ∧ ∃ raw, (∀ malformed trailing,
        deserializeUnique c bytes malformed trailing = .ok raw) ∧ configIdentity raw id := by
  unfold checkConfig at h
  split_ifs at h with hbounds
  obtain ⟨raw, hraw, h⟩ := bind_eq_ok.mp h
  split_ifs at h with hidentity
  refine ⟨by omega, by grind, raw, fun malformed trailing => ?_, hidentity⟩
  rw [deserializeUnique_eq_ok] at hraw ⊢
  exact hraw

theorem checkHostDescriptor_eq_ok {manifest : HostAdapterManifest}
    (h : checkHostDescriptor c bytes = .ok manifest) : bytes.length ≤ maxOwnedBytes ∧
      validId manifest.id .hostAdapterV1 ∧ manifest.source = bytes ∧
      c.manifestId bytes = .ok manifest.id ∧ decodeHostAdapterManifest c bytes = .ok manifest := by
  obtain ⟨found, hdecode, h⟩ := bind_eq_ok.mp h
  split_ifs at h with hid
  cases h
  cases hmanifest : decodeHostAdapterManifest c bytes with
  | error e =>
    rw [hmanifest] at hdecode
    cases hdecode
  | ok manifest' =>
    rw [hmanifest] at hdecode
    cases hdecode
    have hparts := hmanifest
    unfold decodeHostAdapterManifest at hparts
    split_ifs at hparts with hlong
    obtain ⟨id, hid', hpair⟩ := bind_eq_ok.mp hparts
    cases hpair
    exact ⟨Nat.le_of_not_lt hlong, hid, rfl, hid', rfl⟩

theorem lookupConfigDescriptor_spec (hcalm : w₀.Calm) (hpinned : Pinned c id row bytes w₀.disk)
    (hkind : row.kindOr = .configV1) (hcheck : checkConfig c id bytes = .ok ()) :
    ⦃fun w => ⌜w = w₀⌝⦄ lookupConfigDescriptor c id
    ⦃post⟨fun r _ => ⌜r = (publicEntry row, bytes)⌝, fun _ _ => ⌜False⌝⟩⦄ := by
  obtain ⟨hlength, -, raw, hraw, hidentity⟩ := checkConfig_eq_ok hcheck
  have hpin := readPinnedDescriptor_spec hcalm hpinned hlength
  rw [hkind] at hpin
  mvcgen [lookupConfigDescriptor, hpin] with subst_vars
  all_goals grind

theorem lookupHostDescriptor_spec {manifest : HostAdapterManifest} (hcalm : w₀.Calm)
    (hpinned : Pinned c manifest.id row bytes w₀.disk) (hkind : row.kindOr = .hostAdapterV1)
    (hcheck : checkHostDescriptor c bytes = .ok manifest) :
    ⦃fun w => ⌜w = w₀⌝⦄ lookupHostDescriptor c manifest.id
    ⦃post⟨fun r _ => ⌜r = (publicEntry row, manifest)⌝, fun _ _ => ⌜False⌝⟩⦄ := by
  obtain ⟨hlength, -, -, -, hdecode⟩ := checkHostDescriptor_eq_ok hcheck
  have hpin := readPinnedDescriptor_spec hcalm hpinned hlength
  rw [hkind] at hpin
  mvcgen [lookupHostDescriptor, hpin, hdecode] with subst_vars
  all_goals grind [Except.mapError]

end Fornax.Registry
