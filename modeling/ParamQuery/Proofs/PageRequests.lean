import ParamQuery.Service
import ParamQuery.Proofs.Numerals

/-!
# Page requests

Whatever a client sends, the page that a service reads from it can be served: it has a number, a
size and an offset, and none of them wraps around. The number and the size are read one without
the other. So turning paging off makes the page as large as the whole result, but a page number
that is sent along still moves past it.
-/

namespace ParamQuery

namespace PageRequest

/-- The number that a paging parameter gives: between its outer blanks stands a numeral of a
number from one up to the largest word. -/
def usable? (raw : String) : Option Nat :=
  (Numeral.value? (Text.trim raw.toList)).filter fun n => 1 ≤ n ∧ n < UInt64.size

/-- Whether a row, counted from zero, is in the window of the page. -/
def Covers (request : PageRequest) (row : Nat) : Prop :=
  request.offset.toNat ≤ row ∧ row < request.offset.toNat + request.pageSize.toNat

lemma one_le_of_usable? {raw : String} {n : Nat} (h : usable? raw = some n) : 1 ≤ n := by
  obtain ⟨-, hbounds⟩ := Option.filter_eq_some_iff.mp h
  exact (of_decide_eq_true hbounds).1

lemma map_toNat_positive? (raw : String) : (positive? raw).map UInt64.toNat = usable? raw := by
  have hread := Numeral.map_toNat_uint64? (Text.trim raw.toList)
  rw [usable?, positive?]
  cases hword : Numeral.uint64? (Text.trim raw.toList) with
  | none =>
    -- a numeral that is not read is too large
    rw [hword, Option.map_none, eq_comm, Option.filter_eq_none_iff] at hread
    rw [Option.filter_none, Option.map_none, eq_comm, Option.filter_eq_none_iff]
    intro n hn hbounds
    have hsmall := (of_decide_eq_true hbounds).2
    apply hread n hn
    rw [decide_eq_true_eq]
    exact Nat.le_of_lt_succ hsmall
  | some word =>
    rw [hword, Option.map_some, eq_comm, Option.filter_eq_some_iff] at hread
    have hsize := word.toNat_lt_size
    have hpositive : (0 < word) ↔ 1 ≤ word.toNat ∧ word.toNat < UInt64.size := by
      rw [UInt64.lt_iff_toNat_lt, UInt64.toNat_zero]
      omega
    rw [hread.1, Option.filter_some, Option.filter_some]
    simp only [decide_eq_true_eq, hpositive]
    split <;> rfl

lemma toNat_max_one (total : UInt64) : (max total 1).toNat = max total.toNat 1 := by
  have hmax : max total 1 = if total ≤ 1 then 1 else total := rfl
  have hone : (1 : UInt64).toNat = 1 := rfl
  rw [hmax]
  split
  case isTrue h =>
    rw [UInt64.le_iff_toNat_le] at h
    omega
  case isFalse h =>
    rw [UInt64.le_iff_toNat_le] at h
    omega

lemma toNat_offset (request : PageRequest) :
    request.offset.toNat =
      min ((request.page.toNat - 1) * request.pageSize.toNat) (UInt64.size - 1) := by
  unfold offset
  apply UInt64.toNat_ofNat_of_lt'
  exact Nat.lt_of_le_of_lt (Nat.min_le_right _ _) (by decide)

/-- The rows that one page holds are in the window of the first page and of no later one. -/
lemma covers_iff_first_page {request : PageRequest} {row : Nat} (hpage : 1 ≤ request.page.toNat)
    (hrow : row < request.pageSize.toNat) : request.Covers row ↔ request.page.toNat = 1 := by
  have hsize := request.pageSize.toNat_lt_size
  have hoffset := toNat_offset request
  unfold Covers
  constructor
  · intro hcovers
    apply Decidable.byContradiction
    intro hlater
    -- one page or more to skip is all these rows to skip
    have hskip : request.pageSize.toNat ≤ (request.page.toNat - 1) * request.pageSize.toNat :=
      Nat.le_mul_of_pos_left _ (by omega)
    omega
  · intro hfirst
    rw [hfirst, Nat.sub_self, Nat.zero_mul, Nat.zero_min] at hoffset
    omega

section

variable (reserved : ReservedNames) (size : UInt64) (params : Parameters) (total : UInt64)

lemma toNat_page :
    (ofParameters reserved size params total).page.toNat =
      ((params.first? reserved.page).bind usable?).getD 1 := by
  change (((params.first? reserved.page).bind positive?).getD 1).toNat = _
  rw [← Option.getD_map UInt64.toNat, Option.map_bind]
  simp only [Function.comp_def, map_toNat_positive?]
  rfl

/-- A page size that is given but not usable leaves the default, whatever the flag says. -/
lemma toNat_pageSize :
    (ofParameters reserved size params total).pageSize.toNat =
      match params.first? reserved.perPage with
      | some raw => (usable? raw).getD size.toNat
      | none => if params.first? reserved.paginate = some "no" then max total.toNat 1
          else size.toNat := by
  change (pageSizeOf reserved size params total).toNat = _
  rw [pageSizeOf]
  cases params.first? reserved.perPage with
  | some raw => rw [← Option.getD_map UInt64.toNat, map_toNat_positive?]
  | none =>
    dsimp only
    split
    · exact toNat_max_one total
    · rfl

lemma one_le_page : 1 ≤ (ofParameters reserved size params total).page.toNat := by
  rw [toNat_page]
  cases h : (params.first? reserved.page).bind usable? with
  | none => exact Nat.le_refl 1
  | some n =>
    obtain ⟨raw, -, hraw⟩ := Option.bind_eq_some_iff.mp h
    exact one_le_of_usable? hraw

lemma one_le_pageSize (hsize : 1 ≤ size.toNat) :
    1 ≤ (ofParameters reserved size params total).pageSize.toNat := by
  rw [toNat_pageSize]
  cases params.first? reserved.perPage with
  | none =>
    dsimp only
    split
    · exact Nat.le_max_right _ _
    · exact hsize
  | some raw =>
    dsimp only
    cases h : usable? raw with
    | none => exact hsize
    | some n => exact one_le_of_usable? h

end

end PageRequest

namespace Service

/-- The ways to set up a service, with the settings that it serves under. -/
inductive SetUp : Settings → Service → Prop where
  | ofSettings {settings : Settings} {service : Service}
      (h : Service.ofSettings settings = .ok service) : SetUp settings service
  | ofParts {settings : Settings} {registry : Registry} {service : Service}
      (h : Service.ofParts settings registry = .ok service) : SetUp settings service
  | standard : SetUp {} {}

/-- Settings that are refused set no service up. -/
lemma spec_of_ofParts {settings : Settings} {registry : Registry} {service : Service}
    (h : ofParts settings registry = .ok service) :
    service.dialect.reserved = settings.reserved ∧
      service.defaultPageSize = settings.defaultPageSize ∧ settings.defaultPageSize ≠ 0 := by
  obtain ⟨_, hvalid, h⟩ := bind_eq_ok_iff.mp h
  obtain ⟨_, -, h⟩ := bind_eq_ok_iff.mp h
  cases h
  refine ⟨rfl, rfl, fun hzero => ?_⟩
  obtain ⟨_, -, hsize⟩ := bind_eq_ok_iff.mp hvalid
  rw [if_pos hzero] at hsize
  cases hsize

variable {settings : Settings} {service : Service}

/-- However a service is set up, its settings have been checked. -/
lemma SetUp.spec (h : SetUp settings service) :
    service.dialect.reserved = settings.reserved ∧
      service.defaultPageSize = settings.defaultPageSize ∧ 1 ≤ settings.defaultPageSize.toNat := by
  have hpos : ∀ size : UInt64, size ≠ 0 → 1 ≤ size.toNat := by
    intro size hne
    rw [Ne, ← UInt64.toNat_inj, UInt64.toNat_zero] at hne
    omega
  cases h with
  | ofSettings h =>
    obtain ⟨hnames, hsize, hne⟩ := spec_of_ofParts h
    exact ⟨hnames, hsize, hpos _ hne⟩
  | ofParts h =>
    obtain ⟨hnames, hsize, hne⟩ := spec_of_ofParts h
    exact ⟨hnames, hsize, hpos _ hne⟩
  | standard => exact ⟨rfl, rfl, by decide⟩

/-- Every page that a service reads can be served, and is the one that the parameters name. -/
theorem page_request_is_usable (h : SetUp settings service) (params : Parameters)
    (total : UInt64) :
    let names := settings.reserved
    let request := service.pageRequest params total
    1 ≤ request.page.toNat ∧ 1 ≤ request.pageSize.toNat ∧
    request.page.toNat = ((params.first? names.page).bind PageRequest.usable?).getD 1 ∧
    request.pageSize.toNat =
      (match params.first? names.perPage with
      | some raw => (PageRequest.usable? raw).getD settings.defaultPageSize.toNat
      | none => if params.first? names.paginate = some "no" then max total.toNat 1
          else settings.defaultPageSize.toNat) ∧
    request.offset.toNat =
      min ((request.page.toNat - 1) * request.pageSize.toNat) (UInt64.size - 1) := by
  obtain ⟨hnames, hsize, hpos⟩ := h.spec
  dsimp only
  unfold pageRequest
  rw [hnames, hsize]
  exact ⟨PageRequest.one_le_page .., PageRequest.one_le_pageSize _ _ _ _ hpos,
    PageRequest.toNat_page .., PageRequest.toNat_pageSize .., PageRequest.toNat_offset _⟩

/-- A signed page number between blanks, and the largest page size there is under a list key: the
offset stays at the largest word. A size that is no numeral leaves the default, though paging is
turned off. -/
theorem page_request_is_usable_saturated :
    let settings : Settings :=
      { reserved := { page := "p", perPage := "n" }, defaultPageSize := 7 }
    let service : Service := ⟨⟨.builtin, settings.reserved⟩, 7⟩
    let largest := Parameters.ofPairs
      [("n[]", "18446744073709551615"), ("p", " +03\u00a0"), ("n", "4")]
    let unusable := Parameters.ofPairs [("paginate", "no"), ("n", "-5"), ("p", "0")]
    SetUp settings service ∧
      (service.pageRequest largest 40).page.toNat = 3 ∧
      (service.pageRequest largest 40).offset.toNat = UInt64.size - 1 ∧
      (service.pageRequest unusable 40).page.toNat = 1 ∧
      (service.pageRequest unusable 40).pageSize.toNat = 7 := by
  intro settings service largest unusable
  have hsetup : SetUp settings service := .ofSettings (by dsimp only [settings, service]; rfl)
  obtain ⟨-, -, hpage, hsize, hoffset⟩ := page_request_is_usable hsetup largest 40
  obtain ⟨-, -, hfirst, hdefault, -⟩ := page_request_is_usable hsetup unusable 40
  refine ⟨hsetup, hpage.trans (by decide +kernel), ?_, hfirst.trans (by decide +kernel),
    hdefault.trans (by decide +kernel)⟩
  rw [hoffset, hpage, hsize]
  decide +kernel

/-- With paging turned off and no page size given, the window holds every row just if the request
stays on the first page; any other page number moves the window past all of them. -/
theorem unpaged_covers_all_iff_first_page (h : SetUp settings service) (params : Parameters)
    (hoff : params.first? settings.reserved.paginate = some "no")
    (hnosize : params.first? settings.reserved.perPage = none) (total : UInt64) :
    let request := service.pageRequest params total
    let page := ((params.first? settings.reserved.page).bind PageRequest.usable?).getD 1
    ((∀ row < total.toNat, request.Covers row) ↔ total = 0 ∨ page = 1) ∧
    (page ≠ 1 → ∀ row < total.toNat, ¬request.Covers row) := by
  obtain ⟨hnames, -, -⟩ := h.spec
  intro request page
  have hpage : request.page.toNat = page := by
    dsimp only [request, page, pageRequest]
    rw [PageRequest.toNat_page, hnames]
  have hwhole : request.pageSize.toNat = max total.toNat 1 := by
    dsimp only [request, pageRequest]
    rw [PageRequest.toNat_pageSize, hnames, hnosize]
    exact if_pos hoff
  have hcovers : ∀ row < total.toNat, (request.Covers row ↔ page = 1) := by
    intro row hrow
    rw [← hpage]
    exact PageRequest.covers_iff_first_page (PageRequest.one_le_page ..) (by omega)
  refine ⟨⟨fun hall => ?_, ?_⟩, fun hne row hrow h => hne ((hcovers row hrow).mp h)⟩
  · rw [← UInt64.toNat_inj, UInt64.toNat_zero]
    rcases Nat.eq_zero_or_pos total.toNat with hnone | hsome
    · exact .inl hnone
    · exact .inr ((hcovers 0 hsome).mp (hall 0 hsome))
  · rintro (rfl | hfirst) row hrow
    · exact absurd hrow (Nat.not_lt_zero row)
    · exact (hcovers row hrow).mpr hfirst

/-- Without a page number, and with one that is not usable, the window is the whole result; with
the page number 2 it holds no row. -/
theorem unpaged_covers_all_iff_first_page_twice :
    let service : Service := {}
    let whole := Parameters.ofPairs [("page", "first"), ("paginate", "no")]
    let past := Parameters.ofPairs [("paginate[]", "no"), ("page", "2")]
    (∀ row < 42, (service.pageRequest whole 42).Covers row) ∧
      ∀ row < 42, ¬(service.pageRequest past 42).Covers row := by
  intro service whole past
  have hwhole := unpaged_covers_all_iff_first_page .standard whole (by decide) (by decide) 42
  have hpast := unpaged_covers_all_iff_first_page .standard past (by decide) (by decide) 42
  exact ⟨hwhole.1.mpr (.inr (by decide)), hpast.2 (by decide)⟩

/-- Turning paging off does not return everything: a second page of all five rows is empty. -/
theorem unpaged_second_page_is_empty :
    let service : Service := {}
    let params := Parameters.ofPairs [("paginate", "no"), ("page", "2")]
    SetUp {} service ∧ params.first? "paginate" = some "no" ∧ params.first? "per_page" = none ∧
      ¬∀ row < (5 : UInt64).toNat, (service.pageRequest params 5).Covers row := by
  intro service params
  refine ⟨.standard, by decide, by decide, fun hall => ?_⟩
  have hbefore := (hall 0 (by decide)).1
  exact absurd hbefore (by decide)

end Service

end ParamQuery
