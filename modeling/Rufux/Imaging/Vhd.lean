import Rufux.Imaging.Exact

/-!
Virtual disks of the VHD kind as sources: what the footer at the end of a file makes of it, and
how much of the file is written then.
-/

namespace Rufux.Imaging

open Library ByteMap

/-- `"conectix"`. -/
def vhdCookie : List UInt8 := [0x63, 0x6F, 0x6E, 0x65, 0x63, 0x74, 0x69, 0x78]

/-- `"vhdxfile"`. -/
def vhdxSignature : List UInt8 := [0x76, 0x68, 0x64, 0x78, 0x66, 0x69, 0x6C, 0x65]

/-- A source as the probe meets it. -/
structure VhdSource where
  stat : Option FileStat
  bytes : ByteMap
  /-- `fopen` works. -/
  opens : Bool
  /-- The last 512 bytes can be read. -/
  reads : Bool

structure VhdInfo where
  isVhd : Bool
  isFixed : Bool
  payloadBytes : Nat
  kind : String

/-- A big-endian word. -/
def footWord (foot : ByteMap) (off : Nat) : Nat :=
  (foot off).toNat * 2 ^ 24 + (foot (off + 1)).toNat * 2 ^ 16 + (foot (off + 2)).toNat * 2 ^ 8 +
    (foot (off + 3)).toNat

/-- The byte sum of a footer without its checksum. -/
def footSum (foot : ByteMap) : Nat :=
  ((List.range 512).map fun i => if 64 ≤ i ∧ i < 68 then 0 else (foot i).toNat).sum

/-- What the checks of a footer come to. -/
def probeFoot (size : Nat) (foot : ByteMap) : VhdInfo :=
  if foot.get 0 8 = vhdxSignature then ⟨false, false, 0, "vhdx"⟩
  else if foot.get 0 8 ≠ vhdCookie then ⟨false, false, 0, "unknown"⟩
  else if 2 ^ 32 - 1 - footSum foot % 2 ^ 32 ≠ footWord foot 64 then ⟨true, false, 0, "corrupt"⟩
  else
    let type := footWord foot 60
    if type = 2 then ⟨true, true, size - 512, "fixed"⟩
    else if type = 3 then ⟨true, false, 0, "dynamic"⟩
    else if type = 4 then ⟨true, false, 0, "differencing"⟩
    else ⟨true, false, 0, "unknown"⟩

/-- The last 512 bytes. -/
def lastBlock (bytes : ByteMap) (size : Nat) : ByteMap := fun i => bytes (size - 512 + i)

/-- `rufux_vhd_probe`. -/
def rufuxVhdProbe (source : VhdSource) : Option VhdInfo :=
  match source.stat with
  | none => none
  | some stat =>
      if !stat.regular then none
      else if stat.size < 512 + 512 then some ⟨false, false, 0, "unknown"⟩
      else if !source.opens || !source.reads then none
      else some (probeFoot stat.size (lastBlock source.bytes stat.size))

/-- `rufux_vhd_adjust`: the options for the writer and the line for the log, or the error. -/
def rufuxVhdAdjust (src : String) (source : VhdSource) (options : Options) :
    Except String (Options × Option String) :=
  match rufuxVhdProbe source with
  | none => .ok (options, none)
  | some info =>
      if !info.isVhd && info.kind ≠ "vhdx" && info.kind ≠ "corrupt" then .ok (options, none)
      else if info.kind = "vhdx" then
        .error s!"VHDX is not directly writable; convert first: qemu-img convert -O raw '{src}' out.img"
      else if info.kind = "corrupt" then
        .error s!"'{src}' has a VHD cookie but a bad footer checksum"
      else if !info.isFixed then
        let kind := info.kind
        .error s!"{kind} VHD is not directly writable (only fixed type is); convert first: qemu-img convert -O raw '{src}' out.img"
      else
        let payload := info.payloadBytes
        .ok ({ options with srcLen := payload },
          some s!"Fixed VHD detected: writing {payload} payload bytes (512B footer skipped).")

section Footers

variable {foot other : ByteMap} {size : Nat}

theorem sum_range_congr {f g : Nat → Nat} {n : Nat} (same : ∀ i, i < n → f i = g i) :
    ((List.range n).map f).sum = ((List.range n).map g).sum := by
  congr 1
  exact List.map_congr_left fun i inside => same i (List.mem_range.mp inside)

/-- One summand decides a sum in which all others agree. -/
theorem sum_range_ne {f g : Nat → Nat} {n i : Nat} (inside : i < n) (differs : f i ≠ g i)
    (same : ∀ j, j < n → j ≠ i → f j = g j) :
    ((List.range n).map f).sum ≠ ((List.range n).map g).sum := by
  induction n with
  | zero => exact absurd inside (Nat.not_lt_zero i)
  | succ n ih =>
      simp only [List.range_succ, List.map_append, List.sum_append, List.map_cons, List.map_nil,
        List.sum_cons, List.sum_nil, Nat.add_zero]
      by_cases last : i = n
      · subst last
        have before : ((List.range i).map f).sum = ((List.range i).map g).sum :=
          sum_range_congr fun j below => same j (by omega) (by omega)
        omega
      · have tail : f n = g n := same n (Nat.lt_succ_self n) (Ne.symm last)
        have earlier := ih (by omega) fun j below other => same j (by omega) other
        omega

theorem sum_range_le {f : Nat → Nat} {n most : Nat} (small : ∀ i, f i ≤ most) :
    ((List.range n).map f).sum ≤ n * most := by
  induction n with
  | zero => exact Nat.le_of_eq (Nat.zero_mul _).symm
  | succ n ih =>
      have last := small n
      simp only [List.range_succ, List.map_append, List.sum_append, List.map_cons, List.map_nil,
        List.sum_cons, List.sum_nil, Nat.add_zero, Nat.succ_mul]
      omega

theorem footSum_le (foot : ByteMap) : footSum foot ≤ 512 * 255 := by
  apply sum_range_le
  intro i
  have byte := (foot i).toNat_lt
  split <;> omega

/-- A footer with the cookie and a checksum that is right. -/
structure ValidFooter (foot : ByteMap) : Prop where
  cookie : foot.get 0 8 = vhdCookie
  checksum : footSum foot + footWord foot 64 = 2 ^ 32 - 1

def FixedFooter (foot : ByteMap) : Prop := ValidFooter foot ∧ footWord foot 60 = 2

/-- The footer of a dynamic or differencing disk. -/
def ExpandingFooter (foot : ByteMap) : Prop :=
  ValidFooter foot ∧ (footWord foot 60 = 3 ∨ footWord foot 60 = 4)

/-- One byte behind the cookie is another one. -/
def ChangedOnce (foot other : ByteMap) : Prop :=
  ∃ i, 8 ≤ i ∧ i < 512 ∧ other i ≠ foot i ∧ ∀ j, j < 512 → j ≠ i → other j = foot j

theorem word_injective {a b c d a' b' c' d' : UInt8}
    (same : a.toNat * 2 ^ 24 + b.toNat * 2 ^ 16 + c.toNat * 2 ^ 8 + d.toNat =
      a'.toNat * 2 ^ 24 + b'.toNat * 2 ^ 16 + c'.toNat * 2 ^ 8 + d'.toNat) :
    a = a' ∧ b = b' ∧ c = c' ∧ d = d' := by
  have := a.toNat_lt
  have := b.toNat_lt
  have := c.toNat_lt
  have := d.toNat_lt
  have := a'.toNat_lt
  have := b'.toNat_lt
  have := c'.toNat_lt
  have := d'.toNat_lt
  refine ⟨UInt8.toNat_inj.mp ?_, UInt8.toNat_inj.mp ?_, UInt8.toNat_inj.mp ?_,
    UInt8.toNat_inj.mp ?_⟩ <;> omega

/-- A changed byte never goes past the checksum. -/
theorem ChangedOnce.invalid (changed : ChangedOnce foot other) (valid : ValidFooter foot) :
    ¬ ValidFooter other := by
  obtain ⟨i, -, inside, differs, same⟩ := changed
  intro still
  have before := valid.checksum
  have after := still.checksum
  by_cases stored : 64 ≤ i ∧ i < 68
  · have sums : footSum other = footSum foot := by
      apply sum_range_congr
      intro j below
      split
      · rfl
      · rename_i outside
        rw [same j below (by omega)]
    have words : footWord other 64 = footWord foot 64 := by omega
    obtain ⟨first, second, third, fourth⟩ := word_injective words
    have which : i = 64 ∨ i = 64 + 1 ∨ i = 64 + 2 ∨ i = 64 + 3 := by omega
    rcases which with rfl | rfl | rfl | rfl
    · exact differs first
    · exact differs second
    · exact differs third
    · exact differs fourth
  · have words : footWord other 64 = footWord foot 64 := by
      rw [footWord, footWord, same 64 (by decide) (by omega), same (64 + 1) (by decide) (by omega),
        same (64 + 2) (by decide) (by omega), same (64 + 3) (by decide) (by omega)]
    have sums : footSum other ≠ footSum foot := by
      apply sum_range_ne inside
      · rw [if_neg stored, if_neg stored]
        exact fun equal => differs (UInt8.toNat_inj.mp equal)
      · intro j below apart
        rw [same j below apart]
    omega

theorem ChangedOnce.cookie (changed : ChangedOnce foot other) :
    other.get 0 8 = foot.get 0 8 := by
  obtain ⟨i, behind, -, -, same⟩ := changed
  exact get_congr fun j below => same _ (by omega) (by omega)

/-! What the probe makes of a footer. -/

theorem checksum_iff : 2 ^ 32 - 1 - footSum foot % 2 ^ 32 = footWord foot 64 ↔
    footSum foot + footWord foot 64 = 2 ^ 32 - 1 := by
  have most := footSum_le foot
  rw [Nat.mod_eq_of_lt (by omega)]
  omega

theorem cookie_ne_signature : vhdCookie ≠ vhdxSignature := by decide

theorem probeFoot_fixed (fixed : FixedFooter foot) :
    probeFoot size foot = ⟨true, true, size - 512, "fixed"⟩ := by
  obtain ⟨⟨cookie, checksum⟩, type⟩ := fixed
  unfold probeFoot
  rw [cookie, if_neg cookie_ne_signature, if_neg (not_not.mpr rfl),
    if_neg (not_not.mpr (checksum_iff.mpr checksum))]
  exact if_pos type

/-- With a cookie, all but a fixed disk is known as something else. -/
theorem probeFoot_refused (cookie : foot.get 0 8 = vhdCookie) (other : ¬ FixedFooter foot) :
    ∃ kind, probeFoot size foot = ⟨true, false, 0, kind⟩ := by
  unfold probeFoot
  rw [cookie, if_neg cookie_ne_signature, if_neg (not_not.mpr rfl)]
  split
  · exact ⟨_, rfl⟩
  · rename_i right
    have valid : ValidFooter foot := ⟨cookie, checksum_iff.mp (not_not.mp right)⟩
    dsimp only
    rw [if_neg fun type => other ⟨valid, type⟩]
    split
    · exact ⟨_, rfl⟩
    · split
      · exact ⟨_, rfl⟩
      · exact ⟨_, rfl⟩

theorem probeFoot_plain (signature : foot.get 0 8 ≠ vhdxSignature)
    (cookie : foot.get 0 8 ≠ vhdCookie) :
    probeFoot size foot = ⟨false, false, 0, "unknown"⟩ := by
  rw [probeFoot, if_neg signature, if_pos cookie]

end Footers

section Sources

/-- A regular file that can be read. -/
def readable (bytes : ByteMap) (size : Nat) (identity : Nat × Nat) : VhdSource where
  stat := some ⟨true, size, identity⟩
  bytes
  opens := true
  reads := true

/-- The image is refused whatever the options. -/
def Refused (source : VhdSource) : Prop :=
  ∀ src options, ∃ why, rufuxVhdAdjust src source options = .error why

/-- So many bytes at the start of an image, and nothing else, are on a target. -/
structure Written (request : Request) (image initial : ByteMap) (n : Nat)
    (outcome : Outcome Disk) : Prop where
  copied : ∀ index < n, outcome.world.bytes index = image index
  sized : request.regular = true → outcome.world.size = n
  untouched : request.regular = false → ∀ index, n ≤ index →
    outcome.world.bytes index = initial index

/-- The options let the writer write so many bytes of the source: its checks ask for no more
than before, and a real run that reports success writes them and nothing else. -/
structure WritesFirst (source : VhdSource) (n : Nat) (request adjusted : Request) : Prop where
  checks : ∀ total, checkRequest request = .ok total → checkRequest adjusted = .ok n
  writes : ∀ node script size initial outcome,
    Linux.rufuxWriteImage plainFile adjusted node source.bytes script
      ⟨request.regular, size, initial⟩ = some outcome →
    outcome.error = none → adjusted.options.dryRun = false → Delivers script.refills n →
      Written request source.bytes initial n outcome

/-- The image goes through, and the writer that follows writes so many bytes of it. -/
def WrittenAs (source : VhdSource) (n : Nat) : Prop :=
  ∀ request : Request, request.source = source.stat → request.options.srcLen = 0 →
    ∃ srcLen line,
      rufuxVhdAdjust request.src source request.options =
        .ok ({ request.options with srcLen }, line) ∧
      WritesFirst source n request
        { request with options := { request.options with srcLen } }

variable {bytes : ByteMap} {size n : Nat} {identity : Nat × Nat} {request : Request}

/-- What the checks ask for is the payload, or the whole file where none is given. -/
theorem checkRequest_payload {stat : FileStat} {total srcLen : Nat}
    (source : request.source = some stat) (whole : request.options.srcLen = 0)
    (checked : checkRequest request = .ok total) (fits : srcLen ≤ stat.size) :
    checkRequest { request with options := { request.options with srcLen } } =
      .ok (if 0 < srcLen then srcLen else stat.size) := by
  unfold checkRequest at checked ⊢
  dsimp only at checked ⊢
  rw [source] at checked ⊢
  rw [whole] at checked
  dsimp only at checked ⊢
  split at checked
  · cases checked
  · rename_i regular
    rw [if_neg regular, if_neg (Nat.not_lt_of_le fits)]
    rw [if_neg (Nat.not_lt_zero _), if_neg (Nat.lt_irrefl 0)] at checked
    split at checked
    · cases checked
    · rename_i nonempty
      rw [if_neg (show ¬ (if 0 < srcLen then srcLen else stat.size) = 0 by split <;> omega)]
      split at checked
      · cases checked
      · rename_i allowed
        split at checked
        · cases checked
        · rename_i apart
          split at checked
          · cases checked
          · rename_i opens
            cases checked
            simp only [apart, if_false]

theorem checkRequest_total {stat : FileStat} {total : Nat} (source : request.source = some stat)
    (checked : checkRequest request = .ok total) :
    total = if 0 < request.options.srcLen then request.options.srcLen else stat.size := by
  unfold checkRequest at checked
  dsimp only at checked
  rw [source] at checked
  dsimp only at checked
  generalize (if 0 < request.options.srcLen then request.options.srcLen else stat.size) =
    amount at checked ⊢
  repeat' split at checked
  all_goals cases checked
  rfl

/-- A request whose checks ask for so many bytes writes them and nothing else. -/
theorem writesFirst (node : LinuxNode) {adjusted : Request} {script : Script Empty} {size : Nat}
    {initial image : ByteMap} {outcome : Outcome Disk}
    (asks : ∀ total, checkRequest adjusted = .ok total → total = n)
    (ran : Linux.rufuxWriteImage plainFile adjusted node image script
      ⟨adjusted.regular, size, initial⟩ = some outcome)
    (fine : outcome.error = none) (real : adjusted.options.dryRun = false)
    (delivers : Delivers script.refills n) : Written adjusted image initial n outcome := by
  obtain ⟨total, checked, course⟩ := writeImage_ok.mp ⟨ran, fine⟩
  cases asks total checked
  rcases course with ⟨dry, -⟩ | ⟨-, -, sink, opened, writes⟩
  · rw [real] at dry
    cases dry
  · obtain ⟨kind, pads⟩ := @openTarget_ok _ (.linux node) _ _ opened
    have plain : sink.sector = none := by
      by_contra sector
      cases (pads sector).2
    obtain ⟨sizes, last, pulled, -, stored, -⟩ := writes.plain
    have all := (delivers.whole pulled).2.1
    rw [matches_laid.eq_get plain, all] at stored
    have start : (if sink.regular = true then
        plainFile.truncate ⟨adjusted.regular, size, initial⟩
          else ⟨adjusted.regular, size, initial⟩) =
        emptied sink ⟨adjusted.regular, size, initial⟩ := rfl
    rw [start] at stored
    constructor
    · intro index inside
      have put : (emptied sink ⟨adjusted.regular, size, initial⟩).bytes.put 0 (image.get 0 n)
          (0 + index) = (image.get 0 n).getD index 0 :=
        ByteMap.put_inside (by rw [ByteMap.length_get]; exact inside)
      rw [Nat.zero_add] at put
      rw [stored, Disk.bytes_store, put, List.getD_eq_getElem?_getD,
        ByteMap.getElem?_get inside, Nat.zero_add]
      rfl
    · intro regular
      have grown : (emptied sink ⟨adjusted.regular, size, initial⟩).regular = true := by
        rw [emptied, kind, regular]
        rfl
      have empty : (emptied sink ⟨adjusted.regular, size, initial⟩).size = 0 := by
        rw [emptied, kind, regular]
        rfl
      rw [stored, Disk.size_store grown, empty, ByteMap.length_get]
      omega
    · intro device index behind
      have same : (emptied sink ⟨adjusted.regular, size, initial⟩).bytes = initial := by
        rw [emptied, kind, device]
        rfl
      rw [stored, Disk.bytes_store, same]
      exact ByteMap.put_outside (by rw [ByteMap.length_get]; omega)

/-- An adjustment within the file writes the payload that it names. -/
theorem writtenAs_of_adjust {stat : FileStat} {source : VhdSource} {srcLen : Nat} (known : source.stat = some stat) (fits : srcLen ≤ stat.size)
    (amount : (if 0 < srcLen then srcLen else stat.size) = n)
    (adjusts : ∀ src options, options.srcLen = 0 → ∃ line,
      rufuxVhdAdjust src source options = .ok ({ options with srcLen }, line)) :
    WrittenAs source n := by
  intro request same whole
  rw [known] at same
  obtain ⟨line, adjusted⟩ := adjusts request.src request.options whole
  refine ⟨srcLen, line, adjusted, ?_, ?_⟩
  · intro total checked
    rw [checkRequest_payload same whole checked fits, amount]
  · intro node script size initial outcome ran fine real delivers
    have asks : ∀ total, checkRequest { request with options := { request.options with srcLen } } =
        .ok total → total = n := by
      intro total checked
      rw [← amount]
      exact @checkRequest_total { request with options := { request.options with srcLen } } _ _
        same checked
    have written := writesFirst node asks ran fine real delivers
    exact ⟨written.copied, written.sized, written.untouched⟩

/-! ### The kinds of files -/

variable (bytes size)

/-- A payload with the footer of a fixed disk behind it. -/
def IsFixed : Prop := 512 + 512 ≤ size ∧ FixedFooter (lastBlock bytes size)

/-- Such a file with one byte of the footer, behind the cookie, changed. -/
def IsDamaged : Prop :=
  512 + 512 ≤ size ∧ ∃ foot, FixedFooter foot ∧ ChangedOnce foot (lastBlock bytes size)

/-- A dynamic or differencing disk, which has a copy of its footer in front. -/
def IsExpanding : Prop := 512 + 512 ≤ size ∧ ExpandingFooter (lastBlock bytes size)

def IsVhdx : Prop := 8 ≤ size ∧ bytes.get 0 8 = vhdxSignature

/-- The last block of a file that has room for one more starts like a footer. -/
def EndsWith (signature : List UInt8) : Prop :=
  512 + 512 ≤ size ∧ (lastBlock bytes size).get 0 8 = signature

/-- Only the four kinds of containers are not taken as plain images. -/
structure HandledByKind (source : VhdSource) : Prop where
  fixed : IsFixed bytes size → WrittenAs source (size - 512)
  damaged : IsDamaged bytes size → Refused source
  expanding : IsExpanding bytes size → Refused source
  vhdx : IsVhdx bytes size → Refused source
  plain : ¬ IsFixed bytes size → ¬ IsDamaged bytes size → ¬ IsExpanding bytes size →
    ¬ IsVhdx bytes size → WrittenAs source size

/-- Whatever ends with the cookie is taken for a virtual disk, and refused if it is not a fixed
one; what neither ends with the cookie nor has the other signature is a plain image. -/
structure HandledByCookie (source : VhdSource) : Prop where
  fixed : IsFixed bytes size → WrittenAs source (size - 512)
  damaged : IsDamaged bytes size → Refused source
  expanding : IsExpanding bytes size → Refused source
  cookie : EndsWith bytes size vhdCookie → ¬ IsFixed bytes size → Refused source
  plain : ¬ EndsWith bytes size vhdCookie → ¬ EndsWith bytes size vhdxSignature →
    ¬ IsVhdx bytes size → WrittenAs source size

variable {bytes size}

theorem probe_large (large : 512 + 512 ≤ size) :
    rufuxVhdProbe (readable bytes size identity) = some (probeFoot size (lastBlock bytes size)) := by
  unfold rufuxVhdProbe readable
  dsimp only
  rw [if_neg (by decide), if_neg (Nat.not_lt_of_le large)]
  rfl

theorem probe_small (small : size < 512 + 512) :
    rufuxVhdProbe (readable bytes size identity) = some ⟨false, false, 0, "unknown"⟩ := by
  unfold rufuxVhdProbe readable
  dsimp only
  rw [if_neg (by decide), if_pos small]

theorem adjust_plain {source : VhdSource} {src : String} {options : Options}
    (probed : rufuxVhdProbe source = some ⟨false, false, 0, "unknown"⟩) :
    rufuxVhdAdjust src source options = .ok (options, none) := by
  unfold rufuxVhdAdjust
  rw [probed]
  rfl

theorem refused_of_probe {source : VhdSource} {kind : String}
    (probed : rufuxVhdProbe source = some ⟨true, false, 0, kind⟩) : Refused source := by
  intro src options
  unfold rufuxVhdAdjust
  rw [probed]
  dsimp only
  rw [if_neg (by simp)]
  split
  · exact ⟨_, rfl⟩
  · split
    · exact ⟨_, rfl⟩
    · exact ⟨_, rfl⟩

/-- A cookie at the end of anything but a fixed disk is refused. -/
theorem refused_of_cookie (large : 512 + 512 ≤ size)
    (cookie : (lastBlock bytes size).get 0 8 = vhdCookie)
    (other : ¬ FixedFooter (lastBlock bytes size)) : Refused (readable bytes size identity) := by
  obtain ⟨kind, probed⟩ := probeFoot_refused cookie other
  exact refused_of_probe ((probe_large large).trans (congrArg some probed))

/-- Every readable file is handled by what its last block starts with. -/
theorem vhd_handled (bytes : ByteMap) (size : Nat) (identity : Nat × Nat) :
    HandledByCookie bytes size (readable bytes size identity) := by
  constructor
  · rintro ⟨large, fixed⟩
    have probed := (@probe_large bytes _ identity large).trans
      (congrArg some (probeFoot_fixed fixed))
    refine writtenAs_of_adjust rfl (Nat.sub_le size 512) (if_pos (by omega)) ?_
    intro src options _
    unfold rufuxVhdAdjust
    rw [probed]
    exact ⟨_, rfl⟩
  · rintro ⟨large, foot, fixed, changed⟩
    refine refused_of_cookie large (changed.cookie.trans fixed.1.cookie) ?_
    exact fun still => changed.invalid fixed.1 still.1
  · rintro ⟨large, valid, type⟩
    refine refused_of_cookie large valid.cookie ?_
    rintro ⟨-, two⟩
    omega
  · rintro ⟨large, cookie⟩ other
    exact refused_of_cookie large cookie fun fixed => other ⟨large, fixed⟩
  · intro cookie signature _
    have probed : rufuxVhdProbe (readable bytes size identity) =
        some ⟨false, false, 0, "unknown"⟩ := by
      by_cases large : 512 + 512 ≤ size
      · rw [probe_large large]
        exact congrArg some (probeFoot_plain (fun same => signature ⟨large, same⟩)
          fun same => cookie ⟨large, same⟩)
      · exact probe_small (by omega)
    refine writtenAs_of_adjust rfl (Nat.zero_le size) (if_neg (Nat.lt_irrefl 0)) ?_
    intro src options whole
    refine ⟨none, ?_⟩
    rw [adjust_plain probed, ← whole]

/-- A kibibyte that ends with a block of the cookie and zeros. -/
def cookieBlock : ByteMap := zeros.put 512 vhdCookie

/-- It is no container, and is refused all the same. -/
theorem cookieBlock_refused :
    ¬ HandledByKind cookieBlock 1024 (readable cookieBlock 1024 (1, 1)) := by
  have blank (i : Nat) (behind : 8 ≤ i) : lastBlock cookieBlock 1024 i = 0 := by
    have outside : 512 + vhdCookie.length ≤ 1024 - 512 + i := by
      change 512 + 8 ≤ _
      omega
    exact put_outside (.inr outside)
  have type : footWord (lastBlock cookieBlock 1024) 60 = 0 := by decide
  have unfixed : ¬ IsFixed cookieBlock 1024 := by
    rintro ⟨-, -, two⟩
    omega
  have undamaged : ¬ IsDamaged cookieBlock 1024 := by
    rintro ⟨-, foot, ⟨valid, two⟩, i, -, -, -, same⟩
    -- The kind and the checksum of a fixed disk both have a byte that is not blank.
    have checksum := valid.checksum
    have most := footSum_le foot
    by_cases kind : i = 63
    · have high := same 64 (by decide) (by omega)
      rw [blank 64 (by decide)] at high
      rw [footWord, ← high] at checksum
      have := (foot (64 + 1)).toNat_lt
      have := (foot (64 + 2)).toNat_lt
      have := (foot (64 + 3)).toNat_lt
      have zero : (0 : UInt8).toNat = 0 := rfl
      omega
    · have low := same 63 (by decide) (by omega)
      rw [blank 63 (by decide)] at low
      have zero : (0 : UInt8).toNat = 0 := rfl
      rw [footWord, ← low] at two
      omega
  have unexpanding : ¬ IsExpanding cookieBlock 1024 := by
    rintro ⟨-, -, kind⟩
    omega
  have unsigned : ¬ IsVhdx cookieBlock 1024 := by
    rintro ⟨-, same⟩
    revert same
    decide
  intro claimed
  obtain ⟨_, _, adjusted, -⟩ := claimed.plain unfixed undamaged unexpanding unsigned
    { smallRequest with source := some ⟨true, 1024, (1, 1)⟩ } rfl rfl
  have refused : Refused (readable cookieBlock 1024 (1, 1)) :=
    refused_of_cookie (by decide) (by decide) fun fixed => unfixed ⟨by decide, fixed⟩
  obtain ⟨why, refusal⟩ := refused "image" smallRequest.options
  cases refusal.symm.trans adjusted

end Sources

end Rufux.Imaging
