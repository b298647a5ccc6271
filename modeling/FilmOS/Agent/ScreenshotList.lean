import FilmOS.Library.Base64
import FilmOS.Library.Calendar
import FilmOS.Library.JsonText
import FilmOS.Library.Paging
import FilmOS.Board.Runs
import FilmOS.Agent.State

/-!
# The list of screenshots

All screenshots of a user, over all sessions, in three tabs. A screenshot is archived when it was
archived itself or its session was; it is listed with its items that are not closed, when one of
them belongs to the tab. The list is read page by page: the cursor of a page is the text of the
place of the last screenshot on it, the latest day first and within a day by the time of the upload.

`mem_eligibleRows` says which screenshots are listed, `decodeCursor_encodeCursor` that a cursor is
read as the place it was written for, `isAfter_iff` that the comparison with a cursor is the order
of the places, and `listScreenshots_visits` that whoever follows the cursors sees every listed
screenshot once, in order.

The day of a time in the time zone Asia/Shanghai, which PostgreSQL looks up, is an argument, and so
is what the standard library makes of a text in another form than that of the cursors written here.
-/

set_option autoImplicit false
set_option relaxedAutoImplicit false

namespace FilmOS.Agent

open Transaction Paging Base64 JsonText Calendar

/-! ### Ranking -/

/-- The place after which a page begins. -/
structure ScreenshotCursor where
  day : Date
  uploaded : Time
  id : Id
deriving DecidableEq

/-- The day of a time as `timezone('Asia/Shanghai', _)` gives it, and the place that is read from a
text in a form in which no cursor is written, if it is one. -/
structure Formats where
  sourceDay : Time → Date
  otherCursor : String → Option ScreenshotCursor

/-! ### Cursors -/

/-- `json.dumps` of a day, a time and an identifier. -/
def ScreenshotCursor.dumps (cursor : ScreenshotCursor) : List Char :=
  '[' :: (dumpsString (String.ofList (isoDate cursor.day.val)) ++ ',' :: ' ' ::
    (dumpsString (String.ofList (isoTime cursor.uploaded)) ++ ',' :: ' ' ::
      (dumpsString cursor.id ++ [']'])))

/-- The text of a cursor: base64 of its JSON. -/
def encodeCursor (cursor : ScreenshotCursor) : String :=
  String.ofList (urlsafeEncode (cursor.dumps.map Char.toNat))

/-- `json.loads` of an array of three strings, as `json.dumps` writes it. -/
def loadsTriple (text : List Char) : Option (String × String × String) := do
  let text ← ['['].isPrefixOf? text
  let (day, text) ← readString text
  let text ← [',', ' '].isPrefixOf? text
  let (uploaded, text) ← readString text
  let text ← [',', ' '].isPrefixOf? text
  let (id, text) ← readString text
  if text = [']'] then return (day, uploaded, id) else none

/-- The place that is read from a text in the form in which cursors are written. -/
def writtenCursor? (text : String) : Option ScreenshotCursor := do
  let bytes ← urlsafeDecode text.toList
  if bytes.all (· < 128) then
    let (day, uploaded, id) ← loadsTriple (bytes.map Char.ofNat)
    let day ← dateFromIso day.toList
    let uploaded ← timeFromIso uploaded.toList
    return ⟨day, uploaded, id⟩
  else none

/-- The place that is read from a cursor. -/
def Formats.decodeCursor (formats : Formats) (text : String) : Option ScreenshotCursor :=
  (writtenCursor? text).or (formats.otherCursor text)

theorem loadsTriple_dumps (cursor : ScreenshotCursor) : loadsTriple cursor.dumps =
    some (String.ofList (isoDate cursor.day.val), String.ofList (isoTime cursor.uploaded),
      cursor.id) := by
  have hbracket : ∀ rest, ['['].isPrefixOf? ('[' :: rest) = some rest := fun _ ↦ rfl
  have hcomma : ∀ rest, [',', ' '].isPrefixOf? (',' :: ' ' :: rest) = some rest := fun _ ↦ rfl
  unfold loadsTriple ScreenshotCursor.dumps
  simp only [hbracket, hcomma, readString_dumpsString, Option.bind_eq_bind, Option.bind_some]
  rfl

theorem toNat_lt_of_mem_dumps {cursor : ScreenshotCursor} {c : Char} (h : c ∈ cursor.dumps) :
    c.toNat < 128 := by
  simp only [ScreenshotCursor.dumps, List.mem_cons, List.mem_append, List.not_mem_nil,
    or_false] at h
  rcases h with rfl | h | rfl | rfl | h | rfl | rfl | h | rfl
  · decide
  · exact toNat_lt_of_mem_dumpsString h
  · decide
  · decide
  · exact toNat_lt_of_mem_dumpsString h
  · decide
  · decide
  · exact toNat_lt_of_mem_dumpsString h
  · decide

/-- A cursor is read as the place it was written for. -/
theorem decodeCursor_encodeCursor (formats : Formats) {cursor : ScreenshotCursor}
    (h : Representable cursor.uploaded) :
    formats.decodeCursor (encodeCursor cursor) = some cursor := by
  have hascii : ∀ byte ∈ cursor.dumps.map Char.toNat, byte < 128 := by
    intro byte hbyte
    obtain ⟨c, hc, rfl⟩ := List.mem_map.mp hbyte
    exact toNat_lt_of_mem_dumps hc
  have htext : (cursor.dumps.map Char.toNat).map Char.ofNat = cursor.dumps := by
    rw [List.map_map]
    exact (List.map_congr_left fun c _ ↦ Char.ofNat_toNat c).trans (List.map_id _)
  have hdecode := urlsafeDecode_urlsafeEncode fun byte hbyte ↦
    (hascii byte hbyte).trans (by decide)
  have hwritten : writtenCursor? (encodeCursor cursor) = some cursor := by
    unfold writtenCursor? encodeCursor
    rw [String.toList_ofList, hdecode, Option.bind_eq_bind, Option.bind_some,
      if_pos (List.all_eq_true.mpr fun byte hbyte ↦ decide_eq_true (hascii byte hbyte)), htext,
      loadsTriple_dumps, Option.bind_eq_bind, Option.bind_some]
    simp only [String.toList_ofList, dateFromIso_isoDate, timeFromIso_isoTime h,
      Option.bind_eq_bind, Option.bind_some]
    rfl
  unfold Formats.decodeCursor
  rw [hwritten, Option.some_or]

example : encodeCursor ⟨⟨⟨2026, 1, 1⟩, by decide⟩, seconds 1767225600, "a"⟩ =
    "WyIyMDI2LTAxLTAxIiwgIjIwMjYtMDEtMDFUMDA6MDA6MDArMDA6MDAiLCAiYSJd" := by decide +kernel

/-- The text of a cursor counts as given. -/
theorem encodeCursor_ne_empty (cursor : ScreenshotCursor) : encodeCursor cursor ≠ "" := by
  have hne : cursor.dumps.map Char.toNat ≠ [] := List.cons_ne_nil _ _
  intro h
  have htext := congrArg String.toList h
  unfold encodeCursor at htext
  rw [String.toList_ofList] at htext
  exact urlsafeEncode_ne_nil hne htext

/-- `tab`. -/
inductive Tab
  | pending
  | created
  | archived
deriving DecidableEq

/-- A row of `screenshot_rankings`. -/
structure RankedScreenshot where
  id : Id
  sourceUploadedAt : Time
  sourceDay : Date
  sourceArchived : Bool
  screenshotRevision : ℕ
  sourceDayPosition : ℕ
deriving DecidableEq

/-- An item with the session that it belongs to. -/
structure ListedItem where
  sessionId : Id
  item : OrderIntakeItem
deriving DecidableEq

/-- The items of all sessions. -/
def AgentDb.listedItems (db : AgentDb) : List ListedItem :=
  db.workspaces.rows.flatMap (fun w ↦ w.items.rows.map (⟨w.session.id, ·⟩))

/-- The attachments of all sessions, each with its session. -/
def AgentDb.sources (db : AgentDb) : List (ChatSession × ChatAttachment) :=
  db.workspaces.rows.flatMap (fun w ↦ w.attachments.rows.map (w.session, ·))

/-- `archived`: the screenshot is archived, or its session. -/
def effectivelyArchived (session : ChatSession) (attachment : ChatAttachment) : Bool :=
  attachment.intakeArchivedAt.isSome || session.status = .archived

/-- `live`: some item of the screenshot is not closed. -/
def isLive (db : AgentDb) (attachmentId : Id) : Bool :=
  db.listedItems.any (fun listed ↦
    listed.item.sourceAttachmentId = attachmentId ∧ listed.item.status ≠ .closed)

/-- The screenshots that are ranked: those of the users that have something to show. -/
def rankedSources (db : AgentDb) (userIds : List Id) : List (ChatSession × ChatAttachment) :=
  db.sources.filter (fun source ↦
    source.1.userId ∈ userIds ∧ source.1.agentType = .orderIntake ∧
      (source.1.status = .active ∨ source.1.status = .archived) ∧ isLive db source.2.id)

/-- The number of a screenshot among those of the same user, day and state of archiving. -/
def dayPosition (formats : Formats) (sources : List (ChatSession × ChatAttachment))
    (source : ChatSession × ChatAttachment) : ℕ :=
  (sources.filter (fun other ↦
    other.1.userId = source.1.userId ∧
      formats.sourceDay other.2.createdAt = formats.sourceDay source.2.createdAt ∧
      effectivelyArchived other.1 other.2 = effectivelyArchived source.1 source.2 ∧
      toLex (other.2.createdAt, other.2.id) < toLex (source.2.createdAt, source.2.id))).length + 1

/-- `screenshot_rankings`. -/
def screenshotRankings (formats : Formats) (db : AgentDb) (userIds : List Id) :
    List RankedScreenshot :=
  let sources := rankedSources db userIds
  sources.map (fun source ↦
    { id := source.2.id
      sourceUploadedAt := source.2.createdAt
      sourceDay := formats.sourceDay source.2.createdAt
      sourceArchived := effectivelyArchived source.1 source.2
      screenshotRevision := source.2.intakeRevision
      sourceDayPosition := dayPosition formats sources source })

/-! ### Pages -/

/-- The statuses of the items that a tab shows. -/
def Tab.shows (tab : Tab) (status : ItemStatus) : Prop :=
  match tab with
  | .archived => status ≠ .closed
  | .created => status = .created
  | .pending => status = .pending ∨ status = .active ∨ status = .deferred

instance (tab : Tab) (status : ItemStatus) : Decidable (tab.shows status) := by
  unfold Tab.shows
  cases tab <;> infer_instance

/-- The ranked screenshots of a tab: `query` before the cursor. -/
def eligibleRows (formats : Formats) (db : AgentDb) (userId : Id) (tab : Tab) :
    List RankedScreenshot :=
  (screenshotRankings formats db [userId]).filter (fun row ↦
    row.sourceArchived = decide (tab = .archived) ∧ db.listedItems.any (fun listed ↦
      listed.item.sourceAttachmentId = row.id ∧ tab.shows listed.item.status))

/-- The condition of a cursor. -/
def IsAfter (cursor : ScreenshotCursor) (row : RankedScreenshot) : Prop :=
  row.sourceDay < cursor.day ∨ (row.sourceDay = cursor.day ∧
    toLex (cursor.uploaded, cursor.id) < toLex (row.sourceUploadedAt, row.id))

instance (cursor : ScreenshotCursor) (row : RankedScreenshot) : Decidable (IsAfter cursor row) :=
  inferInstanceAs (Decidable (_ ∨ _))

/-- The place of a screenshot in the list: the day downwards, then the time of the upload, then the
identifier. -/
def listPlace (row : RankedScreenshot) : Dateᵒᵈ ×ₗ Time ×ₗ Id :=
  toLex (OrderDual.toDual row.sourceDay, toLex (row.sourceUploadedAt, row.id))

/-- The cursor that a page ends with. -/
def RankedScreenshot.cursor (row : RankedScreenshot) : ScreenshotCursor :=
  ⟨row.sourceDay, row.sourceUploadedAt, row.id⟩

/-- A screenshot on a page. -/
structure ScreenshotGroup where
  row : RankedScreenshot
  items : List ListedItem
  busy : Bool
  runningItemId : Option Id
deriving DecidableEq

/-- What `list_screenshots` returns. -/
structure ScreenshotPage where
  screenshots : List ScreenshotGroup
  counts : List (ItemStatus × ℕ)
  archivedCount : ℕ
  nextCursor : Option String
deriving DecidableEq

/-- The items of the ranked screenshots with a state of archiving, those not closed. -/
def countedItems (db : AgentDb) (ranked : List RankedScreenshot) (archived : Bool) :
    List ListedItem :=
  db.listedItems.filter (fun listed ↦ listed.item.status ≠ .closed ∧
    ranked.any (fun row ↦ row.id = listed.item.sourceAttachmentId ∧ row.sourceArchived = archived))

/-- `counts` by status: the statuses that occur. -/
def statusCounts (items : List ListedItem) : List (ItemStatus × ℕ) :=
  ([.pending, .active, .deferred, .created].map (fun status ↦
    (status, items.countP (·.item.status = status)))).filter (fun count ↦ count.2 ≠ 0)

/-- The items of the selected screenshots, by the index of the order in its screenshot. -/
def selectedItems (db : AgentDb) (selected : List RankedScreenshot) : List ListedItem :=
  orderBy (fun listed ↦ listed.item.sourceOrderIndex) (db.listedItems.filter (fun listed ↦
    listed.item.sourceAttachmentId ∈ selected.map RankedScreenshot.id ∧
      listed.item.status ≠ .closed))

/-- The sessions of the items with an open run, each with the item of the run. -/
def openRuns (db : AgentDb) (items : List ListedItem) : Dict (Option Id) :=
  Dict.ofList ((db.workspaces.rows.filter (fun w ↦
    w.session.id ∈ items.map ListedItem.sessionId)).flatMap (fun w ↦
      (w.runs.rows.filter (·.status.IsOpen)).map (fun run ↦ (w.session.id, run.workItemId))))

/-- A selected screenshot with its items. A screenshot is selected because of an item, so that there
is a first one, and its session is the session of the screenshot. -/
def screenshotGroup (items : List ListedItem) (runs : Dict (Option Id)) (row : RankedScreenshot) :
    ScreenshotGroup :=
  let own := items.filter (·.item.sourceAttachmentId = row.id)
  let running := own.head?.bind (fun first ↦ runs.get? first.sessionId)
  { row, items := own, busy := running.isSome, runningItemId := running.join }

/-- The rows of a tab from a cursor on. -/
def rowsFrom (formats : Formats) (eligible : List RankedScreenshot) (cursor : Option String) :
    Except Failure (List RankedScreenshot) :=
  match truthy cursor with
  | none => .ok eligible
  | some text =>
    match formats.decodeCursor text with
    | none => .error (.refused "INVALID_CURSOR" "截图列表已变化，请刷新" 422)
    | some after => .ok (eligible.filter (fun row ↦ IsAfter after row))

/-- The page for the rows that were read, one more than its limit if there are as many. -/
def screenshotPage (db : AgentDb) (ranked rows : List RankedScreenshot) (limit : ℕ) :
    ScreenshotPage :=
  let selected := rows.take limit
  let items := selectedItems db selected
  let last := if limit < rows.length then selected.getLast? else none
  { screenshots := selected.map (screenshotGroup items (openRuns db items))
    counts := statusCounts (countedItems db ranked false)
    archivedCount := (countedItems db ranked true).length
    nextCursor := last.map (fun row ↦ encodeCursor row.cursor) }

/-- `list_screenshots`. -/
def listScreenshots (formats : Formats) (db : AgentDb) (userId : Id) (tab : Tab)
    (cursor : Option String) (limit : ℕ) : Except Failure ScreenshotPage := do
  let ranked := screenshotRankings formats db [userId]
  let query ← rowsFrom formats (eligibleRows formats db userId tab) cursor
  return screenshotPage db ranked ((orderBy listPlace query).take (limit + 1)) limit

/-! ### Which screenshots a tab lists -/

/-- A tab lists a screenshot: it belongs to an order session of the user that is not being deleted,
it is archived exactly when the tab is that of the archive, and the tab shows one of its items. -/
structure Lists (db : AgentDb) (userId : Id) (tab : Tab) (session : ChatSession)
    (attachment : ChatAttachment) : Prop where
  source : (session, attachment) ∈ db.sources
  owner : session.userId = userId
  agent : session.agentType = .orderIntake
  status : session.status = .active ∨ session.status = .archived
  archived : effectivelyArchived session attachment = true ↔ tab = .archived
  shown : ∃ listed ∈ db.listedItems, listed.item.sourceAttachmentId = attachment.id ∧
    tab.shows listed.item.status

/-- A row is that of a screenshot. -/
structure RankedScreenshot.Of (formats : Formats) (row : RankedScreenshot)
    (attachment : ChatAttachment) : Prop where
  id : row.id = attachment.id
  uploaded : row.sourceUploadedAt = attachment.createdAt
  day : row.sourceDay = formats.sourceDay attachment.createdAt

variable {formats : Formats} {db : AgentDb} {userId : Id} {tab : Tab} {limit : ℕ}

theorem Tab.ne_closed_of_shows {status : ItemStatus} (h : tab.shows status) : status ≠ .closed := by
  rintro rfl
  cases tab with
  | pending => simp [Tab.shows] at h
  | created => simp [Tab.shows] at h
  | archived => exact h rfl

theorem isLive_iff {attachmentId : Id} : isLive db attachmentId = true ↔
    ∃ listed ∈ db.listedItems, listed.item.sourceAttachmentId = attachmentId ∧
      listed.item.status ≠ .closed := by
  unfold isLive
  simp only [List.any_eq_true, decide_eq_true_eq]

/-- The rows of a tab are those of the screenshots it lists. -/
theorem mem_eligibleRows {row : RankedScreenshot} (h : row ∈ eligibleRows formats db userId tab) :
    ∃ session attachment, Lists db userId tab session attachment ∧ row.Of formats attachment := by
  obtain ⟨hrow, hcondition⟩ := List.mem_filter.mp h
  obtain ⟨⟨session, attachment⟩, hsource, rfl⟩ := List.mem_map.mp hrow
  obtain ⟨hsource, hranked⟩ := List.mem_filter.mp hsource
  obtain ⟨howner, hagent, hstatus, -⟩ := of_decide_eq_true hranked
  obtain ⟨harchived, hitems⟩ := of_decide_eq_true hcondition
  obtain ⟨listed, hlisted, hshown⟩ := List.any_eq_true.mp hitems
  refine ⟨session, attachment, ⟨hsource, List.mem_singleton.mp howner, hagent, hstatus, ?_,
    listed, hlisted, of_decide_eq_true hshown⟩, ⟨rfl, rfl, rfl⟩⟩
  change effectivelyArchived session attachment = _ at harchived
  rw [harchived, decide_eq_true_iff]

/-- Every screenshot that a tab lists has a row. -/
theorem Lists.exists_row {session : ChatSession} {attachment : ChatAttachment}
    (h : Lists db userId tab session attachment) :
    ∃ row ∈ eligibleRows formats db userId tab, row.Of formats attachment := by
  obtain ⟨listed, hlisted, hsource, hshows⟩ := h.shown
  have hlive : isLive db attachment.id = true :=
    isLive_iff.mpr ⟨listed, hlisted, hsource, Tab.ne_closed_of_shows hshows⟩
  have hranked : (session, attachment) ∈ rankedSources db [userId] := by
    refine List.mem_filter.mpr ⟨h.source, decide_eq_true ⟨?_, h.agent, h.status, hlive⟩⟩
    exact List.mem_singleton.mpr h.owner
  refine ⟨_, List.mem_filter.mpr ⟨List.mem_map.mpr ⟨_, hranked, rfl⟩, decide_eq_true ⟨?_, ?_⟩⟩,
    ⟨rfl, rfl, rfl⟩⟩
  · change effectivelyArchived session attachment = _
    rw [Bool.eq_iff_iff, h.archived, decide_eq_true_iff]
  · exact List.any_eq_true.mpr ⟨listed, hlisted, decide_eq_true ⟨hsource, hshows⟩⟩

/-- A screenshot has one row. -/
theorem nodup_eligibleRows (hprimary : (db.sources.map (·.2.id)).Nodup) :
    ((eligibleRows formats db userId tab).map RankedScreenshot.id).Nodup := by
  have hsources : ((rankedSources db [userId]).map (·.2.id)).Nodup :=
    hprimary.sublist (List.filter_sublist.map _)
  have hranked : ((screenshotRankings formats db [userId]).map RankedScreenshot.id).Nodup := by
    unfold screenshotRankings
    rw [List.map_map]
    exact hsources
  exact hranked.sublist (List.filter_sublist.map _)

theorem nodup_listPlace {rows : List RankedScreenshot}
    (h : (rows.map RankedScreenshot.id).Nodup) : (rows.map listPlace).Nodup := by
  have hid : rows.map RankedScreenshot.id =
      (rows.map listPlace).map (fun place ↦ (ofLex (ofLex place).2).2) := by
    rw [List.map_map]
    rfl
  rw [hid] at h
  exact h.of_map _

/-! ### Pages -/

/-- The hand-written comparison with a cursor is the order of the places. -/
theorem isAfter_iff {row other : RankedScreenshot} :
    IsAfter row.cursor other ↔ listPlace row < listPlace other := by
  unfold listPlace
  rw [Prod.Lex.toLex_lt_toLex]
  constructor
  · rintro (hday | ⟨hday, hlater⟩)
    · exact Or.inl (OrderDual.toDual_lt_toDual.mpr hday)
    · exact Or.inr ⟨congrArg OrderDual.toDual hday.symm, hlater⟩
  · rintro (hday | ⟨hday, hlater⟩)
    · exact Or.inl (OrderDual.toDual_lt_toDual.mp hday)
    · exact Or.inr ⟨(OrderDual.toDual_inj.mp hday).symm, hlater⟩

/-- The uploads were at times that a `datetime` can hold. -/
def UploadsRepresentable (db : AgentDb) : Prop :=
  ∀ source ∈ db.sources, Representable source.2.createdAt

instance (db : AgentDb) : Decidable (UploadsRepresentable db) :=
  inferInstanceAs (Decidable (∀ source ∈ db.sources, _))

/-- What a cursor stands for: an end of the ordered rows of the tab, those behind the cursor. -/
def Denotes (formats : Formats) (db : AgentDb) (userId : Id) (tab : Tab) (cursor : Option String)
    (rest : List RankedScreenshot) : Prop :=
  (∃ before, orderBy listPlace (eligibleRows formats db userId tab) = before ++ rest) ∧
    ∃ query, rowsFrom formats (eligibleRows formats db userId tab) cursor = .ok query ∧
      orderBy listPlace query = rest

/-- The cursor of the last row that a page shows of a rest stands for what remains of it. -/
theorem denotes_after {rest : List RankedScreenshot} {cursor : Option String}
    (hprimary : (db.sources.map (·.2.id)).Nodup)
    (huploads : UploadsRepresentable db) (h : Denotes formats db userId tab cursor rest)
    {row : RankedScreenshot} (hrow : (rest.take limit).getLast? = some row) :
    Denotes formats db userId tab (some (encodeCursor row.cursor)) (rest.drop limit) := by
  obtain ⟨⟨before, hbefore⟩, -⟩ := h
  have hmem : row ∈ eligibleRows formats db userId tab := by
    rw [← mem_orderBy listPlace, hbefore]
    exact List.mem_append_right _ (List.mem_of_mem_take (List.mem_of_getLast? hrow))
  have huploaded : Representable row.cursor.uploaded := by
    obtain ⟨session, attachment, hlists, hof⟩ := mem_eligibleRows hmem
    change Representable row.sourceUploadedAt
    rw [hof.uploaded]
    exact huploads _ hlists.source
  have hkeys : ((eligibleRows formats db userId tab).map listPlace).Nodup :=
    nodup_listPlace (nodup_eligibleRows hprimary)
  refine ⟨⟨before ++ rest.take limit, ?_⟩,
    (eligibleRows formats db userId tab).filter (fun other ↦ IsAfter row.cursor other), ?_, ?_⟩
  · rw [hbefore, List.append_assoc, List.take_append_drop]
  · unfold rowsFrom truthy
    rw [Option.filter_some, if_pos (decide_eq_true (encodeCursor_ne_empty _))]
    simp only [decodeCursor_encodeCursor formats huploaded]
  · rw [orderBy_filter hkeys, ← filter_after_take hbefore (pairwise_lt_orderBy hkeys) hrow]
    exact List.filter_congr fun other _ ↦ decide_eq_decide.mpr isAfter_iff

/-- The page of a cursor shows the beginning of what the cursor stands for. -/
theorem shows_page {rest : List RankedScreenshot} {cursor : Option String}
    (hlimit : 0 < limit) (hprimary : (db.sources.map (·.2.id)).Nodup)
    (huploads : UploadsRepresentable db) (h : Denotes formats db userId tab cursor rest)
    (ranked : List RankedScreenshot) :
    Shows (Denotes formats db userId tab) (fun page ↦ page.screenshots.map ScreenshotGroup.row)
      ScreenshotPage.nextCursor limit rest
      (screenshotPage db ranked (rest.take (limit + 1)) limit) := by
  have hselected : (rest.take (limit + 1)).take limit = rest.take limit := by
    rw [List.take_take, min_eq_left (Nat.le_succ limit)]
  constructor
  · change ((rest.take (limit + 1)).take limit |>.map _).map ScreenshotGroup.row = rest.take limit
    rw [List.map_map, hselected]
    exact List.map_id _
  · intro hfits
    have hno : ¬ limit < (rest.take (limit + 1)).length := by
      rw [List.length_take]
      omega
    unfold screenshotPage
    simp only [if_neg hno, Option.map_none]
  · intro hmore
    have hyes : limit < (rest.take (limit + 1)).length := by
      rw [List.length_take]
      omega
    have hne : rest.take limit ≠ [] := by
      rw [← List.length_pos_iff, List.length_take]
      omega
    have hlast := List.getLast?_eq_some_getLast hne
    refine ⟨_, ?_, denotes_after hprimary huploads h hlast⟩
    unfold screenshotPage
    simp only [if_pos hyes, hselected, hlast, Option.map_some]

/-! ### Items of the listed screenshots -/

/-- The items of a screenshot that are not closed. -/
def itemsShown (db : AgentDb) (attachmentId : Id) : List ListedItem :=
  db.listedItems.filter (fun listed ↦
    listed.item.sourceAttachmentId = attachmentId ∧ listed.item.status ≠ .closed)

/-- A selected screenshot carries all its items that are not closed. -/
theorem items_screenshotGroup {selected : List RankedScreenshot} {row : RankedScreenshot}
    (hrow : row ∈ selected) (runs : Dict (Option Id)) :
    (screenshotGroup (selectedItems db selected) runs row).items.Perm (itemsShown db row.id) := by
  change ((selectedItems db selected).filter (·.item.sourceAttachmentId = row.id)).Perm _
  have hfiltered : (db.listedItems.filter (fun listed ↦
      listed.item.sourceAttachmentId ∈ selected.map RankedScreenshot.id ∧
        listed.item.status ≠ .closed)).filter (·.item.sourceAttachmentId = row.id) =
      itemsShown db row.id := by
    unfold itemsShown
    rw [List.filter_filter]
    refine List.filter_congr fun listed _ ↦ ?_
    rw [← Bool.decide_and, decide_eq_decide]
    constructor
    · rintro ⟨hsource, -, hopen⟩
      exact ⟨hsource, hopen⟩
    · rintro ⟨hsource, hopen⟩
      exact ⟨hsource, hsource ▸ List.mem_map_of_mem hrow, hopen⟩
  rw [← hfiltered]
  exact (orderBy_perm _ _).filter _

/-- The call with a cursor returns a page. -/
def Fetches (formats : Formats) (db : AgentDb) (userId : Id) (tab : Tab) (limit : ℕ)
    (cursor : Option String) (page : ScreenshotPage) : Prop :=
  listScreenshots formats db userId tab cursor limit = .ok page

/-- The screenshots of the pages, one after another. -/
def visited (pages : List ScreenshotPage) : List RankedScreenshot :=
  pages.flatMap (fun page ↦ page.screenshots.map ScreenshotGroup.row)

/-- The walk through the pages of a tab ends after these pages, which show every screenshot of the
tab once, in order, each with its items. -/
structure Visits (formats : Formats) (db : AgentDb) (userId : Id) (tab : Tab) (limit : ℕ)
    (pages : List ScreenshotPage) : Prop where
  walk : Followed (Fetches formats db userId tab limit) ScreenshotPage.nextCursor none pages
  short : ∀ page ∈ pages, page.screenshots.length ≤ limit
  once : ((visited pages).map RankedScreenshot.id).Nodup
  ordered : (visited pages).Pairwise (fun row later ↦ listPlace row < listPlace later)
  listed : ∀ row ∈ visited pages, ∃ session attachment,
    Lists db userId tab session attachment ∧ row.Of formats attachment
  all : ∀ session attachment, Lists db userId tab session attachment →
    ∃ row ∈ visited pages, row.Of formats attachment
  items : ∀ page ∈ pages, ∀ group ∈ page.screenshots,
    group.items ≠ [] ∧ group.items.Perm (itemsShown db group.row.id)

theorem items_of_fetch {cursor : Option String} {page : ScreenshotPage}
    (h : Fetches formats db userId tab limit cursor page) (group : ScreenshotGroup)
    (hgroup : group ∈ page.screenshots) : group.items.Perm (itemsShown db group.row.id) := by
  unfold Fetches listScreenshots at h
  simp only [except_bind_eq_ok, except_pure_eq_ok] at h
  obtain ⟨query, -, rfl⟩ := h
  obtain ⟨row, hrow, rfl⟩ := List.mem_map.mp hgroup
  exact items_screenshotGroup hrow _

/-- A listed screenshot has an item to show. -/
theorem itemsShown_ne_nil {row : RankedScreenshot}
    (h : row ∈ eligibleRows formats db userId tab) : itemsShown db row.id ≠ [] := by
  obtain ⟨session, attachment, hlists, hof⟩ := mem_eligibleRows h
  obtain ⟨listed, hlisted, hsource, hshows⟩ := hlists.shown
  refine List.ne_nil_of_mem (a := listed) (List.mem_filter.mpr ⟨hlisted, decide_eq_true ⟨?_, ?_⟩⟩)
  · rw [hsource, hof.id]
  · exact Tab.ne_closed_of_shows hshows

/-- Whoever reads a tab from the beginning and follows the cursors comes to an end, and sees every
screenshot of the tab exactly once, by day, time and identifier, with all its items. -/
theorem listScreenshots_visits (formats : Formats) (db : AgentDb) (userId : Id) (tab : Tab)
    (limit : ℕ) (hlimit : 0 < limit) (hprimary : (db.sources.map (·.2.id)).Nodup)
    (huploads : UploadsRepresentable db) :
    ∃! pages, Visits formats db userId tab limit pages := by
  have hids : ((eligibleRows formats db userId tab).map RankedScreenshot.id).Nodup :=
    nodup_eligibleRows hprimary
  have hpages : ∀ cursor rest, Denotes formats db userId tab cursor rest →
      ∃ page, Fetches formats db userId tab limit cursor page ∧
        Shows (Denotes formats db userId tab) (fun page ↦ page.screenshots.map ScreenshotGroup.row)
          ScreenshotPage.nextCursor limit rest page := by
    intro cursor rest hdenotes
    obtain ⟨-, query, hquery, hrest⟩ := id hdenotes
    refine ⟨_, ?_, shows_page hlimit hprimary huploads hdenotes
      (screenshotRankings formats db [userId])⟩
    unfold Fetches listScreenshots
    rw [hquery, ← hrest]
    rfl
  have hstart : Denotes formats db userId tab none
      (orderBy listPlace (eligibleRows formats db userId tab)) := ⟨⟨[], rfl⟩, _, rfl, rfl⟩
  obtain ⟨pages, hwalk, hvisited, hshort⟩ := exists_followed hlimit hpages hstart
  change visited pages = _ at hvisited
  refine ⟨pages, ?_, fun pages' hpages' ↦ hpages'.walk.unique ?_ hwalk⟩
  · constructor
    · exact hwalk
    · intro page hpage
      rw [← List.length_map ScreenshotGroup.row]
      exact hshort page hpage
    · rw [hvisited]
      exact ((orderBy_perm _ _).map _).nodup_iff.mpr hids
    · rw [hvisited]
      exact pairwise_lt_orderBy (nodup_listPlace hids)
    · intro row hrow
      rw [hvisited, mem_orderBy] at hrow
      exact mem_eligibleRows hrow
    · intro session attachment hlists
      have hexists : ∃ row ∈ eligibleRows formats db userId tab, row.Of formats attachment :=
        hlists.exists_row
      obtain ⟨row, hrow, hof⟩ := hexists
      refine ⟨row, ?_, hof⟩
      rwa [hvisited, mem_orderBy]
    · intro page hpage group hgroup
      have hrow : group.row ∈ eligibleRows formats db userId tab := by
        rw [← mem_orderBy listPlace, ← hvisited]
        exact List.mem_flatMap.mpr ⟨page, hpage, List.mem_map_of_mem hgroup⟩
      obtain ⟨cursor, hfetch⟩ := hwalk.exists_fetch page hpage
      have hitems := items_of_fetch hfetch group hgroup
      refine ⟨fun hnil ↦ itemsShown_ne_nil hrow ?_, hitems⟩
      rw [hnil] at hitems
      exact hitems.nil_eq.symm
  · intro cursor page page' hpage hpage'
    exact Except.ok.inj (hpage.symm.trans hpage')

/-- A screenshot of the first or the second of January 2026. -/
def sampleScreenshot (id : Id) (createdAt : Time) : ChatAttachment where
  id
  clientUploadId := id
  messageId := none
  position := none
  status := .bound
  file := ⟨"sha", "image/png", 1, 1, 1⟩
  storageKey := id ++ ".png"
  intakeArchivedAt := none
  intakeRevision := 0
  available := true
  expiresAt := none
  createdAt

def sampleItem (id attachmentId : Id) : OrderIntakeItem where
  id
  sourceMessageId := "m"
  sourceAttachmentId := attachmentId
  sourceOrderIndex := 1
  queuePosition := 1
  status := .pending
  revision := 1
  recognitionStatus := .notStarted
  draft := .blank
  issues := []
  provenance := Table.empty
  orderId := none
  lastErrorCode := none
  createdAt := 0

/-- An order session with one screenshot on each of two days. -/
def sampleListing : AgentDb where
  workspaces := Table.empty.put
    { Workspace.blank ⟨"s", "u", .orderIntake, .active, "", 1, ⟨none, none⟩, none, none, 0, 0, 0,
        none, none⟩ with
      attachments := (Table.empty.put (sampleScreenshot "a" (seconds 1767225600))).put
        (sampleScreenshot "b" (seconds 1767312000))
      items := (Table.empty.put (sampleItem "i" "a")).put (sampleItem "j" "b") }
  commands := Table.empty
  gcJobs := Table.empty
  board := .empty

/-- Shanghai is eight hours ahead, and no other text is a cursor. -/
def sampleFormats : Formats where
  sourceDay time :=
    let ymd := Ymd.ofDays ((time + seconds 28800 + epochMicros).toNat / dayMicros)
    if hvalid : ymd.Valid then ⟨ymd, hvalid⟩ else ⟨⟨9999, 12, 31⟩, by decide⟩
  otherCursor _ := none

/-- Two screenshots on pages of one. -/
theorem listScreenshots_visits_sample :
    ∃! pages, Visits sampleFormats sampleListing "u" .pending 1 pages :=
  listScreenshots_visits sampleFormats sampleListing "u" .pending 1 Nat.one_pos
    (by decide +kernel) (by decide +kernel)

end FilmOS.Agent
