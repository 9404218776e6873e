import OsmoSysmon.Polls
import OsmoSysmon.Lib.Rounding

/-! # The texts of `sysinfo`

Three texts are put into one buffer of 32 bytes, one after the other.  Read back, the uptime
is that of the system to the second, and the memory is in whole megabytes as long as there is
room for the three numbers.
-/

namespace OsmoSysmon

open CText Rounding

/-- `to_mbytes`. -/
def SysInfo.mbytes (si : SysInfo) (n : UInt64) : Nat := n.toNat / (1048576 / si.memUnit.toNat)

theorem SysInfo.toMbytes_eq (si : SysInfo) (n : UInt64) :
    si.toMbytes n = decimal (si.mbytes n) := rfl

/-! ## Numbers as they are printed -/

theorem numbers_decimal (n : Nat) : numbers (decimal n) = [n] := by
  rw [numbers_digits (decimal_ne_nil n) fun _ => isdigit_of_mem_decimal, digitsValue_decimal]

theorem numbers_decimal_append (n : Nat) {c : UInt8} (isSep : isdigit c = false) (s : CStr) :
    numbers (decimal n ++ c :: s) = n :: numbers s := by
  rw [numbers_append (decimal_ne_nil n) (fun _ => isdigit_of_mem_decimal) isSep,
    digitsValue_decimal]

/-- A leading zero does not change a number. -/
theorem decimal2_digits (n : Nat) :
    decimal2 n ≠ [] ∧ (∀ c ∈ decimal2 n, isdigit c = true) ∧ digitsValue (decimal2 n) = n := by
  rw [decimal2]
  split
  · refine ⟨by simp [ascii], ?_, ?_⟩
    · intro c isMem
      rcases List.mem_append.mp isMem with isZero | isDecimal
      · rw [show ascii "0" = [48] from rfl, List.mem_singleton] at isZero
        rw [isZero]
        rfl
      · exact isdigit_of_mem_decimal isDecimal
    · exact digitsValue_decimal n
  · exact ⟨decimal_ne_nil n, fun _ => isdigit_of_mem_decimal, digitsValue_decimal n⟩

theorem length_decimal2 {n : Nat} (small : n < 100) : (decimal2 n).length = 2 := by
  have some := List.length_pos_iff.mpr (decimal_ne_nil n)
  have one := length_decimal_le_iff (n := n) (by decide : 0 < 1)
  have two := length_decimal_le_iff (n := n) (by decide : 0 < 2)
  rw [decimal2]
  split
  · simp [ascii]
    omega
  · omega

/-- What has room in the buffer is not cut, and neither is its end. -/
theorem take_part {part : CStr} (room : part.length < sysinfoBufSize - 1) (c : UInt8) (s : CStr) :
    ∃ rest, (part ++ c :: s).take (sysinfoBufSize - 1) = part ++ c :: rest := by
  obtain ⟨n, more⟩ := Nat.exists_eq_add_of_lt room
  refine ⟨s.take n, ?_⟩
  rw [List.take_append, List.take_of_length_le (Nat.le_of_lt room),
    show sysinfoBufSize - 1 - part.length = n + 1 by omega, List.take_succ_cons]

/-! ## The uptime -/

theorem numbers_uptimeText (si : SysInfo) :
    numbers si.uptimeText =
      [si.uptime.toNat / 86400, si.uptime.toNat / 3600 % 24, si.uptime.toNat / 60 % 60,
        si.uptime.toNat % 60] := by
  have two (n : Nat) {c : UInt8} (isSep : isdigit c = false) (s : CStr) :
      numbers (decimal2 n ++ c :: s) = n :: numbers s := by
    obtain ⟨nonempty, digits, value⟩ := decimal2_digits n
    rw [numbers_append nonempty digits isSep, value]
  have last (n : Nat) : numbers (decimal2 n) = [n] := by
    obtain ⟨nonempty, digits, value⟩ := decimal2_digits n
    rw [numbers_digits nonempty digits, value]
  have isText : si.uptimeText =
      decimal (si.uptime.toNat / 86400) ++ 100 :: 32 :: (decimal2 (si.uptime.toNat / 3600 % 24) ++
        58 :: (decimal2 (si.uptime.toNat / 60 % 60) ++ 58 :: decimal2 (si.uptime.toNat % 60))) := by
    simp [SysInfo.uptimeText, ascii]
  rw [isText, numbers_decimal_append _ rfl, numbers_sep rfl, two _ rfl, two _ rfl, last]

theorem length_uptimeText (si : SysInfo) : si.uptimeText.length < sysinfoBufSize := by
  have bounded := si.uptime.toNat_lt
  have days : (decimal (si.uptime.toNat / (60 * 60 * 24))).length ≤ 15 := by
    rw [length_decimal_le_iff (by decide)]
    omega
  have hours : (decimal2 (si.uptime.toNat / (60 * 60) % 24)).length = 2 := length_decimal2 (by omega)
  have minutes : (decimal2 (si.uptime.toNat / 60 % 60)).length = 2 := length_decimal2 (by omega)
  have seconds : (decimal2 (si.uptime.toNat % 60)).length = 2 := length_decimal2 (by omega)
  have ends : (ascii "d ").length = 2 ∧ (ascii ":").length = 1 := ⟨rfl, rfl⟩
  simp only [SysInfo.uptimeText, List.length_append, hours, minutes, seconds, ends, sysinfoBufSize]
  omega

/-! ## The load -/

/-- `loadfac`, in units of 1/65536: the argument as a double, divided by a power of two, which
    is exact, and returned as a float. -/
def loadfac (load : UInt64) : Nat := roundBits 24 (roundBits 53 load.toNat)

/-- What `"%.2f"` prints of so many units of 1/65536. -/
def hundredths (units : Nat) : Nat := nearest (100 * units) 65536

def fixed2 (units : Nat) : CStr :=
  decimal (hundredths units / 100) ++ ascii "." ++ decimal2 (hundredths units % 100)

/-- `"%.2f/%.2f/%.2f"`. -/
def loadsText (load1 load5 load15 : UInt64) : CStr :=
  fixed2 (loadfac load1) ++ ascii "/" ++ fixed2 (loadfac load5) ++ ascii "/" ++
    fixed2 (loadfac load15)

example : loadsText 65535 33 98304 = ascii "1.00/0.00/1.50" := by decide

theorem loadfac_mono {load load' : UInt64} (le : load ≤ load') : loadfac load ≤ loadfac load' :=
  roundBits_mono (by decide) (roundBits_mono (by decide) (UInt64.le_iff_toNat_le.mp le))

/-- Below 256 a load is not rounded, and above by less than one in eight million. -/
theorem loadfac_close (load : UInt64) :
    loadfac load ≤ load.toNat + 2 * (load.toNat / 2 ^ 24) ∧
      load.toNat ≤ loadfac load + 2 * (load.toNat / 2 ^ 24) := by
  have bounded := load.toNat_lt
  have float := @roundBits_close 24 (by decide) (roundBits 53 load.toNat)
  have double := @roundBits_close 53 (by decide) load.toNat
  by_cases exact : load.toNat < 2 ^ 53
  · rw [roundBits_of_lt (by decide) exact] at float
    rw [loadfac, roundBits_of_lt (by decide) exact]
    omega
  · rw [loadfac]
    omega

/-- What is printed is off by half a hundredth, and by what has been rounded before. -/
theorem hundredths_close (load : UInt64) :
    (65536 * hundredths (loadfac load) - 100 * load.toNat : Int).natAbs ≤
      32768 + 200 * (load.toNat / 2 ^ 24) := by
  have printed := nearest_close (d := 65536) (by decide) (100 * loadfac load)
  have rounded := loadfac_close load
  rw [hundredths]
  omega

theorem hundredths_mono {load load' : UInt64} (le : load ≤ load') :
    hundredths (loadfac load) ≤ hundredths (loadfac load') :=
  nearest_mono (Nat.mul_le_mul_left 100 (loadfac_mono le)) _

theorem fixed2_eq (units : Nat) :
    fixed2 units = decimal (hundredths units / 100) ++ 46 :: decimal2 (hundredths units % 100) := by
  simp [fixed2, ascii]

theorem numbers_fixed2 (units : Nat) :
    numbers (fixed2 units) = [hundredths units / 100, hundredths units % 100] := by
  obtain ⟨nonempty, digits, value⟩ := decimal2_digits (hundredths units % 100)
  rw [fixed2_eq, numbers_decimal_append _ rfl, numbers_digits nonempty digits, value]

theorem numbers_fixed2_append (units : Nat) {c : UInt8} (isSep : isdigit c = false) (s : CStr) :
    numbers (fixed2 units ++ c :: s) =
      hundredths units / 100 :: hundredths units % 100 :: numbers s := by
  obtain ⟨nonempty, digits, value⟩ := decimal2_digits (hundredths units % 100)
  rw [fixed2_eq, List.append_assoc, List.cons_append, numbers_decimal_append _ rfl,
    numbers_append nonempty digits isSep, value]

theorem length_fixed2 {units k : Nat} (some : 0 < k) (small : hundredths units / 100 < 10 ^ k) :
    (fixed2 units).length ≤ k + 3 := by
  have whole := (length_decimal_le_iff some).mpr small
  have rest := length_decimal2 (Nat.mod_lt (hundredths units) (by decide : 0 < 100))
  simp [fixed2, rest, ascii]
  omega

theorem loadsText_eq (load1 load5 load15 : UInt64) :
    loadsText load1 load5 load15 = fixed2 (loadfac load1) ++
      47 :: (fixed2 (loadfac load5) ++ 47 :: fixed2 (loadfac load15)) := by
  simp [loadsText, ascii]

/-- The first load is not cut, whatever comes behind it. -/
theorem numbers_loads_take (load1 load5 load15 : UInt64) :
    (numbers ((loadsText load1 load5 load15).take (sysinfoBufSize - 1))).take 2 =
      [hundredths (loadfac load1) / 100, hundredths (loadfac load1) % 100] := by
  have length : (fixed2 (loadfac load1)).length ≤ 15 + 3 := by
    have bounded := load1.toNat_lt
    have close := hundredths_close load1
    exact length_fixed2 (by decide) (by omega)
  obtain ⟨rest, cut⟩ := @take_part (fixed2 (loadfac load1)) (by simp only [sysinfoBufSize]; omega)
    47 (fixed2 (loadfac load5) ++ 47 :: fixed2 (loadfac load15))
  rw [loadsText_eq, cut, numbers_fixed2_append _ rfl]
  rfl

/-- Loads below a million are all printed. -/
theorem length_loadsText {load1 load5 load15 : UInt64} (first : load1.toNat < 65536 * 999999)
    (second : load5.toNat < 65536 * 999999) (third : load15.toNat < 65536 * 999999) :
    (loadsText load1 load5 load15).length < sysinfoBufSize := by
  have digits {load : UInt64} (small : load.toNat < 65536 * 999999) :
      (fixed2 (loadfac load)).length ≤ 6 + 3 := by
    have close := hundredths_close load
    exact length_fixed2 (by decide) (by omega)
  have first := digits first
  have second := digits second
  have third := digits third
  rw [loadsText_eq]
  simp [sysinfoBufSize]
  omega

/-- **The loads that are published can be read back, the first always and all three below a
    million: to half a hundredth for loads below 256, and nearly so above; a larger load is never
    published as a smaller one.** -/
theorem loads_readable (si : SysInfo) (load1 load5 load15 : UInt64) :
    ∃ load, { si with loads := loadsText load1 load5 load15 }.values.head? =
        some (ascii "load", load) ∧
      (numbers load).take 2 =
        [hundredths (loadfac load1) / 100, hundredths (loadfac load1) % 100] ∧
      (load1.toNat < 65536 * 999999 → load5.toNat < 65536 * 999999 →
        load15.toNat < 65536 * 999999 →
        numbers load = [hundredths (loadfac load1) / 100, hundredths (loadfac load1) % 100,
          hundredths (loadfac load5) / 100, hundredths (loadfac load5) % 100,
          hundredths (loadfac load15) / 100, hundredths (loadfac load15) % 100]) ∧
      (∀ l : UInt64, (65536 * hundredths (loadfac l) - 100 * l.toNat : Int).natAbs ≤
        32768 + 200 * (l.toNat / 2 ^ 24)) ∧
      ∀ l l' : UInt64, l ≤ l' → hundredths (loadfac l) ≤ hundredths (loadfac l') := by
  refine ⟨_, rfl, numbers_loads_take load1 load5 load15, ?_, hundredths_close,
    fun _ _ => hundredths_mono⟩
  intro first second third
  rw [List.take_of_length_le (Nat.le_sub_one_of_lt (length_loadsText first second third)),
    loadsText_eq, numbers_fixed2_append _ rfl, numbers_fixed2_append _ rfl, numbers_fixed2]

/-- A host with four gigabytes of memory, sizes in bytes, up for a day and a bit. -/
def smallHost : SysInfo where
  loads := []
  totalram := 4294967296
  freeram := 2147483648
  sharedram := 1048576
  memUnit := 1
  uptime := 90061
  unit := by decide

theorem loads_readable_smallHost :
    ∃ load, { smallHost with loads := loadsText 65536 33000 98304 }.values.head? =
      some (ascii "load", load) ∧ numbers load = [1, 0, 0, 50, 1, 50] := by
  obtain ⟨load, isLoad, -, all, -⟩ := loads_readable smallHost 65536 33000 98304
  refine ⟨load, isLoad, ?_⟩
  rw [all (by decide) (by decide) (by decide)]
  decide

/-! ## The memory -/

theorem ram_eq (si : SysInfo) :
    si.ram = decimal (si.mbytes si.totalram) ++
      47 :: (decimal (si.mbytes si.freeram) ++ 47 :: decimal (si.mbytes si.sharedram)) := by
  simp [SysInfo.ram, SysInfo.toMbytes_eq, ascii]

theorem numbers_ram (si : SysInfo) :
    numbers si.ram = [si.mbytes si.totalram, si.mbytes si.freeram, si.mbytes si.sharedram] := by
  rw [ram_eq, numbers_decimal_append _ rfl, numbers_decimal_append _ rfl, numbers_decimal]

theorem mbytes_lt (si : SysInfo) (n : UInt64) : si.mbytes n < 10 ^ 20 := by
  have bounded := n.toNat_lt
  have smaller := Nat.div_le_self n.toNat (1048576 / si.memUnit.toNat)
  rw [SysInfo.mbytes]
  omega

/-- The total is not cut, whatever comes behind it. -/
theorem numbers_ram_take (si : SysInfo) :
    (numbers (si.ram.take (sysinfoBufSize - 1))).head? = some (si.mbytes si.totalram) := by
  have length : (decimal (si.mbytes si.totalram)).length ≤ 20 :=
    (length_decimal_le_iff (by decide)).mpr (mbytes_lt si _)
  obtain ⟨rest, cut⟩ := @take_part (decimal (si.mbytes si.totalram))
    (by simp only [sysinfoBufSize]; omega) 47
    (decimal (si.mbytes si.freeram) ++ 47 :: decimal (si.mbytes si.sharedram))
  rw [ram_eq, cut, numbers_decimal_append _ rfl]
  rfl

/-- Below a petabyte everything is printed. -/
theorem length_ram {si : SysInfo} (total : si.mbytes si.totalram < 10 ^ 9)
    (free : si.mbytes si.freeram < 10 ^ 9) (shared : si.mbytes si.sharedram < 10 ^ 9) :
    si.ram.length < sysinfoBufSize := by
  have digits {n : Nat} (small : n < 10 ^ 9) : (decimal n).length ≤ 9 :=
    (length_decimal_le_iff (by decide)).mpr small
  have total := digits total
  have free := digits free
  have shared := digits shared
  rw [ram_eq]
  simp [sysinfoBufSize]
  omega

/-- A unit that divides a megabyte loses nothing but the fraction. -/
theorem mbytes_eq {si : SysInfo} (whole : si.memUnit.toNat ∣ 1048576) (n : UInt64) :
    si.mbytes n = n.toNat * si.memUnit.toNat / 1048576 := by
  obtain ⟨k, isWhole⟩ := whole
  have positive : 0 < si.memUnit.toNat := by
    rcases Nat.eq_zero_or_pos si.memUnit.toNat with isZero | positive
    · simp [isZero] at isWhole
    · exact positive
  rw [SysInfo.mbytes, isWhole, Nat.mul_div_cancel_left _ positive, Nat.mul_comm n.toNat,
    Nat.mul_div_mul_left _ _ positive]

/-- **What is published of a system can be read back: its uptime to the second and its total
    memory always, and all of its memory below a petabyte.  A unit of a power of two gives
    whole megabytes.** -/
theorem sysinfo_readable (si : SysInfo) :
    ∃ ram uptime, si.values =
        [(ascii "load", si.loads.take (sysinfoBufSize - 1)), (ascii "ram", ram),
          (ascii "uptime", uptime)] ∧
      (∃ d h m s, numbers uptime = [d, h, m, s] ∧ h < 24 ∧ m < 60 ∧ s < 60 ∧
        ((d * 24 + h) * 60 + m) * 60 + s = si.uptime.toNat) ∧
      (numbers ram).head? = some (si.mbytes si.totalram) ∧
      (si.mbytes si.totalram < 10 ^ 9 → si.mbytes si.freeram < 10 ^ 9 →
        si.mbytes si.sharedram < 10 ^ 9 →
        numbers ram = [si.mbytes si.totalram, si.mbytes si.freeram, si.mbytes si.sharedram]) ∧
      (si.memUnit.toNat ∣ 1048576 → ∀ n, si.mbytes n = n.toNat * si.memUnit.toNat / 1048576) := by
  refine ⟨_, _, rfl, ?_, numbers_ram_take si, ?_, mbytes_eq⟩
  · refine ⟨si.uptime.toNat / 86400, si.uptime.toNat / 3600 % 24, si.uptime.toNat / 60 % 60,
      si.uptime.toNat % 60, ?_, by omega, by omega, by omega, by omega⟩
    rw [List.take_of_length_le (Nat.le_sub_one_of_lt (length_uptimeText si)), numbers_uptimeText]
  · intro total free shared
    rw [List.take_of_length_le (Nat.le_sub_one_of_lt (length_ram total free shared)), numbers_ram]

theorem sysinfo_readable_smallHost :
    ∃ ram uptime, smallHost.values =
        [(ascii "load", []), (ascii "ram", ram), (ascii "uptime", uptime)] ∧
      numbers ram = [4096, 2048, 1] ∧ numbers uptime = [1, 1, 1, 1] := by
  obtain ⟨ram, uptime, values, ⟨d, h, m, s, isUptime, hours, minutes, seconds, sum⟩, -, all, -⟩ :=
    sysinfo_readable smallHost
  refine ⟨ram, uptime, values, all (by decide) (by decide) (by decide), ?_⟩
  have total : ((d * 24 + h) * 60 + m) * 60 + s = 90061 := sum
  rw [isUptime]
  simp only [List.cons.injEq, and_true]
  omega

end OsmoSysmon
