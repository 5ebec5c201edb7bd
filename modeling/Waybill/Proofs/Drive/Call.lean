/-
  The calls of the client.

  A call that is fit comes by a token and goes on with it: a conversion stores the spreadsheet, and
  if that gave a number, asks for the file and deletes it again; an upload stores a file.

  * `Fit`: what a spreadsheet needs to be sent at all;
  * `CallStep`: what a call can come to;
  * `Filed` and `Delivered`: what is sent with a token, for a conversion and for an upload.

  Statements: `on_convert` and `on_upload` (nothing else can happen), `on_convert_of_unfit` and
  `on_upload_of_not_ready` (nothing happens at all), `exported_eq_ok` (when a conversion succeeds).
-/
import Mathlib
import Waybill.Proofs.Drive.Token

namespace Waybill.Drive

variable {cfg : Config} {timeout : Nat} {o : Outside} {c : Client} {ε α : Type}

/-! ## Calls with a token -/

/-- What a call comes to that goes on with a token: `work` tells what may be sent with it. -/
inductive CallStep (cfg : Config) (timeout : Nat) (c : Client)
    (work : String → List Exchange → Except ε α → Prop) : Outcome ε α → Prop
  | tokenless {cause : DriveError} {c' : Client} {e : ε}
      (htoken : TokenStep cfg timeout c (.ended (.error cause) c')) :
      CallStep cfg timeout c work (.ended (.error e) c')
  | crashed {past : List Incident} (htoken : TokenStep cfg timeout c (.crashed past)) :
      CallStep cfg timeout c work (.crashed past)
  | done {token : String} {c' : Client} {rest : List Incident} {result : Except ε α}
      (htoken : TokenStep cfg timeout c (.ended (.ok token) c'))
      (htimeless : ∀ time, .now time ∉ rest) (hwork : work token (exchanges rest) result) :
      CallStep cfg timeout c work (.ended result (c'.after rest))

/-! ## Conversions -/

/-- There is a spreadsheet with a name, and the settings are ready. -/
structure Fit (cfg : Config) (xlsx : ByteArray) (name : String) : Prop where
  filled : ¬xlsx.isEmpty
  named : ¬Text.isBlankText name
  ready : cfg.Ready

/-- The result that the answer to an export gives. -/
def exported (answer : Except DriveError Reply) : Except ConversionError ByteArray :=
  match (do (← answer).accepted .exporting : Except DriveError Reply) with
  | .error e => .error (.drive e)
  | .ok reply => if Pdf.isPdf reply.body then .ok reply.body else .error .notPdf

/-- A PDF file starts with its four letters. -/
theorem isPdf_iff {bytes : ByteArray} :
    Pdf.isPdf bytes ↔ ∃ rest, bytes = "%PDF".toUTF8 ++ rest := by
  have hbeq : Pdf.isPdf bytes ↔ bytes.extract 0 4 = "%PDF".toUTF8 := by
    change ByteArray.beq _ _ ↔ _
    unfold ByteArray.beq
    rw [beq_iff_eq, ByteArray.ext_iff]
  rw [hbeq]
  constructor
  · intro h
    refine ⟨bytes.extract 4 bytes.size, ?_⟩
    rw [← h, ByteArray.extract_append_extract]
    simp
  · rintro ⟨rest, rfl⟩
    exact ByteArray.extract_append_eq_left rfl

/-- The result is the body of an answer that tells of success, if it starts as a PDF file does. -/
theorem exported_eq_ok {answer : Except DriveError Reply} {pdf : ByteArray} :
    exported answer = .ok pdf ↔
      bodyOf? answer = some pdf ∧ ∃ rest, pdf = "%PDF".toUTF8 ++ rest := by
  rw [← isPdf_iff]
  cases answer with
  | error e => simp [exported, bodyOf?, Except.toOption, bind, Except.bind]
  | ok reply =>
    change (match reply.accepted .exporting with
      | .error e => _
      | .ok reply => _) = _ ↔ _
    unfold Reply.accepted
    by_cases h : reply.isSuccess
    · simp [h, bodyOf?_eq_some]
      grind
    · simp [h, bodyOf?_eq_some]

/-- The spreadsheet is sent, to be stored under a name that nothing else has. -/
def Exchange.Stores (x : Exchange) (cfg : Config) (xlsx : ByteArray) (name : String)
    (timeout : Nat) (token : String) : Prop :=
  ∃ fresh, x.request.Is .upload .put (cfg.contentUrl (tempPath cfg fresh name)) timeout
    token xlsx

/-- What a conversion sends with a token: the spreadsheet, and if it was stored, the request for
    the PDF file and for the deletion. -/
inductive Filed (cfg : Config) (xlsx : ByteArray) (name : String) (timeout : Nat) (token : String) :
    List Exchange → Except ConversionError ByteArray → Prop
  | unstored {put : Exchange} {e : ConversionError} (hput : put.Stores cfg xlsx name timeout token)
      (hnone : itemOf? put.answer = none) :
      Filed cfg xlsx name timeout token [put] (.error e)
  | stored {item : String} {put get delete : Exchange}
      (hput : put.Stores cfg xlsx name timeout token) (hitem : itemOf? put.answer = some item)
      (hget : get.request.Is .exporting .get
        ((cfg.driveUrl ["items", item, "content"]).map (·.addQuery "format" "pdf"))
        timeout token .empty)
      (hdelete : delete.request.Is .deletion .delete (cfg.driveUrl ["items", item])
        timeout token .empty) :
      Filed cfg xlsx name timeout token [put, get, delete] (exported get.answer)

/-- What an upload sends with a token: the PDF file, unless there is no name on the path. -/
inductive Delivered (cfg : Config) (path : String) (pdf : ByteArray) (timeout : Nat)
    (token : String) : List Exchange → Except DeliveryError Unit → Prop
  | pathless (hpath : Config.remoteNames path = []) :
      Delivered cfg path pdf timeout token [] (.error (.drive (.invalidUrl path "empty remote path")))
  | sent {put : Exchange} {result : Except DeliveryError Unit}
      (hput : put.request.Is .upload .put (cfg.contentUrl path) timeout token pdf)
      (hresult : result = .ok () ↔
        ∃ reply, put.answer = .ok reply ∧ (reply.status = 200 ∨ reply.status = 201)) :
      Delivered cfg path pdf timeout token [put] result

theorem on_putContent {token path : String} {bytes : ByteArray} {kind : String} {url : Url}
    (hurl : cfg.contentUrl path = .ok url) (hsecure : url.scheme = "https") :
    ∃ x : Exchange, x.request.Is .upload .put (cfg.contentUrl path) timeout token bytes ∧
      (putContent cfg token path bytes kind timeout).on o c =
        .ended x.answer (c.after [.sent x]) := by
  unfold putContent
  rw [Session.on_lift_bind_of_ok hurl]
  refine ⟨⟨_, _⟩, ?_, on_send hsecure⟩
  exact ⟨rfl, rfl, hurl, hsecure, rfl, rfl, rfl⟩

/-- The file is asked for, over the secure protocol. -/
theorem on_exportPdf (h : cfg.Ready) (token item : String) :
    ∃ x : Exchange, x.request.Is .exporting .get
        ((cfg.driveUrl ["items", item, "content"]).map (·.addQuery "format" "pdf"))
        timeout token .empty ∧
      (exportPdf cfg token item timeout).on o c =
        .ended ((do (← x.answer).accepted .exporting : Except DriveError Reply).map (·.body))
          (c.after [.sent x]) := by
  obtain ⟨url, hurl, hsecure⟩ := h.driveUrl ["items", item, "content"]
  unfold exportPdf
  rw [Session.on_lift_bind_of_ok hurl, hurl, Session.on_bind, on_send hsecure]
  generalize hr : Request.mk .exporting .get (url.addQuery "format" "pdf") timeout _ none [] .empty = r
  have hr : r.Is .exporting .get ((Except.ok url).map (·.addQuery "format" "pdf")) timeout token
      .empty := by
    subst hr
    exact ⟨rfl, rfl, rfl, hsecure, rfl, rfl, rfl⟩
  generalize hanswer : o.send c.past r = answer
  refine ⟨⟨r, answer⟩, hr, ?_⟩
  cases answer with
  | error e => rfl
  | ok reply =>
    change _ = Outcome.ended ((reply.accepted .exporting).map (·.body)) _
    simp only
    cases reply.accepted .exporting <;> rfl

/-- The file is deleted, over the secure protocol. -/
theorem on_deleteItem (h : cfg.Ready) (token item : String) :
    ∃ x : Exchange, x.request.Is .deletion .delete (cfg.driveUrl ["items", item]) timeout token
        .empty ∧
      (deleteItem cfg token item timeout : Session ε Unit).on o c =
        .ended (.ok ⟨⟩) (c.after [.sent x]) := by
  obtain ⟨url, hurl, hsecure⟩ := h.driveUrl ["items", item]
  unfold deleteItem
  dsimp only
  rw [Session.on_bind, Session.on_outcome, Session.on_lift_bind_of_ok hurl, on_send hsecure]
  exact ⟨⟨_, _⟩, ⟨rfl, rfl, hurl, hsecure, rfl, rfl, rfl⟩, rfl⟩

/-! ## Calls -/

/-- A call that goes on with a token does what is done with any token. -/
theorem callStep_bind (h : cfg.Ready) {next : String → Session DriveError α}
    {work : String → List Exchange → Except DriveError α → Prop}
    (hnext : ∀ token c', ∃ rest result, (∀ time, .now time ∉ rest) ∧
      work token (exchanges rest) result ∧
      (next token).on o c' = .ended result (c'.after rest)) :
    CallStep cfg timeout c work (Session.on (do
      liftM cfg.preflight
      next (← accessToken cfg timeout)) o c) := by
  rw [Session.on_lift_bind_of_ok (preflight_eq_ok (v := ()).2 h), Session.on_bind]
  have htoken := @on_accessToken cfg timeout o c h
  revert htoken
  rcases (accessToken cfg timeout).on o c with ⟨e | token, c'⟩ | past
  · intro htoken
    exact .tokenless htoken
  · intro htoken
    obtain ⟨rest, result, htimeless, hwork, hon⟩ := hnext token c'
    simp only [hon]
    exact .done htoken htimeless hwork
  · intro htoken
    exact .crashed htoken

/-- The reading of an answer, as an option. -/
theorem toOption_itemRead (answer : Except DriveError Reply) :
    (do readItem (← answer)).toOption = itemOf? answer := by
  cases h : (do readItem (← answer)) with
  | ok item => exact (itemRead_eq_ok.1 h).symm
  | error e =>
    refine (Option.eq_none_iff_forall_ne_some.2 fun item hitem => ?_).symm
    rw [itemRead_eq_ok.2 hitem] at h
    cases h

/-- A spreadsheet is stored, or its answer holds no number. -/
theorem on_store (h : cfg.Ready) (xlsx : ByteArray) (name : String) :
    CallStep cfg timeout c (fun token sent result => ∃ put, sent = [put] ∧
        put.Stores cfg xlsx name timeout token ∧
        result.toOption = (itemOf? put.answer).map (token, ·))
      ((store cfg xlsx name timeout).on o c) := by
  unfold store
  refine callStep_bind h fun token c' => ?_
  rw [Session.on_bind_of_ok Session.on_freshName]
  generalize o.freshName c'.past = fresh
  obtain ⟨url, hurl, hsecure⟩ := h.contentUrl fresh name
  obtain ⟨put, hput, hon⟩ := on_putContent (o := o) (c := c'.after [.named fresh]) hurl hsecure
  rw [Session.on_bind, hon, Client.after_after]
  refine ⟨[.named fresh, .sent put], do return (token, ← readItem (← put.answer)), by simp,
    ⟨put, rfl, ⟨fresh, hput⟩, ?_⟩, ?_⟩
  · rw [← toOption_itemRead]
    cases put.answer with
    | error e => rfl
    | ok reply =>
      change Except.toOption (do return (token, ← readItem reply)) = (readItem reply).toOption.map _
      cases readItem reply <;> rfl
  · cases put.answer with
    | error e => rfl
    | ok reply =>
      change _ = Outcome.ended (do return (token, ← readItem reply)) _
      simp only
      cases readItem reply <;> rfl

/-- What a conversion does with a file that was stored. -/
def retrieve (cfg : Config) (token item : String) (timeout : Nat) :
    Session ConversionError ByteArray := do
  let exported ← (exportPdf cfg token item timeout).outcome
  deleteItem cfg token item timeout
  let pdf ← liftM (exported.mapError .drive : Except ConversionError ByteArray)
  if !Pdf.isPdf pdf then throw .notPdf
  return pdf

theorem convert_of_filled {xlsx : ByteArray} {name : String} (hfilled : ¬xlsx.isEmpty)
    (hnamed : ¬(Text.trim name).isEmpty) : convert cfg xlsx name timeout =
      (store cfg xlsx (Text.trim name) timeout).causing .drive >>= fun p =>
        retrieve cfg p.1 p.2 timeout := by
  unfold convert
  rw [if_neg hfilled]
  dsimp only
  rw [if_neg hnamed]
  rfl

/-- A file of the drive is asked for as a PDF file, and deleted whatever the answer is. -/
theorem on_retrieve (h : cfg.Ready) (token item : String) :
    ∃ get delete : Exchange,
      get.request.Is .exporting .get
        ((cfg.driveUrl ["items", item, "content"]).map (·.addQuery "format" "pdf"))
        timeout token .empty ∧
      delete.request.Is .deletion .delete (cfg.driveUrl ["items", item]) timeout token .empty ∧
      (retrieve cfg token item timeout).on o c =
        .ended (exported get.answer) (c.after [.sent get, .sent delete]) := by
  obtain ⟨get, hget, hexport⟩ := @on_exportPdf cfg timeout o c h token item
  obtain ⟨delete, hdelete, hdeletion⟩ :=
    @on_deleteItem cfg timeout o (c.after [.sent get]) ConversionError h token item
  refine ⟨get, delete, hget, hdelete, ?_⟩
  unfold retrieve
  rw [Session.on_bind, Session.on_outcome, hexport]
  simp only
  rw [Session.on_bind_of_ok hdeletion, Client.after_after]
  unfold exported
  cases (do (← get.answer).accepted .exporting : Except DriveError Reply) with
  | error e => rfl
  | ok reply =>
    change (Session.on (liftM (Except.ok reply.body) >>= _) o _) = _
    rw [Session.on_lift_bind_of_ok rfl]
    simp only
    cases Pdf.isPdf reply.body <;> rfl

/-- The file that was stored is asked for and deleted. -/
theorem on_convert {xlsx : ByteArray} {name : String} (h : Fit cfg xlsx name) :
    CallStep cfg timeout c (Filed cfg xlsx (Text.trim name) timeout)
      ((convert cfg xlsx name timeout).on o c) := by
  have hnamed : ¬(Text.trim name).isEmpty := Text.isEmpty_trim name ▸ h.named
  rw [convert_of_filled h.filled hnamed, Session.on_bind, Session.on_causing]
  have hstore := @on_store cfg timeout o c h.ready xlsx (Text.trim name)
  revert hstore
  generalize (store cfg xlsx (Text.trim name) timeout).on o c = out
  intro hstore
  cases hstore with
  | tokenless htoken => exact .tokenless htoken
  | crashed htoken => exact .crashed htoken
  | @done token c' rest result htoken htimeless hwork =>
    obtain ⟨put, hsent, hput, hresult⟩ := hwork
    cases result with
    | error e =>
      refine .done htoken htimeless ?_
      rw [hsent]
      exact .unstored hput (by simpa [Except.toOption] using hresult)
    | ok p =>
      obtain ⟨item, hitem, rfl⟩ := Option.map_eq_some_iff.1 hresult.symm
      obtain ⟨get, delete, hget, hdelete, hon⟩ :=
        @on_retrieve cfg timeout o (c'.after rest) h.ready token item
      simp only [Except.mapError, hon, Client.after_after]
      refine .done htoken (by simpa using htimeless) ?_
      simp only [exchanges_append, hsent]
      exact .stored hput hitem hget hdelete

/-- A file is sent to its place, if it has one. -/
theorem on_put (h : cfg.Ready) (path : String) (bytes : ByteArray) (kind : String) :
    CallStep cfg timeout c
      (fun token sent result =>
        (sent = [] ∧ Config.remoteNames path = [] ∧
          result = .error (.invalidUrl path "empty remote path")) ∨
        ∃ put : Exchange, sent = [put] ∧ result = put.answer ∧
          put.request.Is .upload .put (cfg.contentUrl path) timeout token bytes)
      (Session.on (do
        liftM cfg.preflight
        let token ← accessToken cfg timeout
        putContent cfg token path bytes kind timeout) o c) := by
  refine callStep_bind h fun token c' => ?_
  by_cases hpath : Config.remoteNames path = []
  · refine ⟨[], _, by simp, .inl ⟨rfl, hpath, rfl⟩, ?_⟩
    unfold putContent
    rw [Session.on_lift_bind_of_error (contentUrl_of_eq_nil hpath), Client.after_nil]
  · obtain ⟨segments, hurl⟩ := contentUrl_of_ne_nil (c := cfg) hpath
    obtain ⟨url, hdrive, hsecure⟩ := h.driveUrl segments
    obtain ⟨put, hput, hon⟩ := on_putContent (hurl.trans hdrive) hsecure
    exact ⟨[.sent put], _, by simp, .inr ⟨put, rfl, rfl, hput⟩, hon⟩

theorem delivered_eq_ok {reply : Reply} :
    delivered reply = .ok () ↔ reply.status = 200 ∨ reply.status = 201 := by
  unfold delivered
  split
  · simp_all
  · next h =>
    cases reply.accepted .upload <;> simp_all

/-- The PDF file is sent to its place, if it has one. -/
theorem on_upload (h : cfg.Ready) (path : String) (pdf : ByteArray) :
    CallStep cfg timeout c (Delivered cfg path pdf timeout)
      ((upload cfg path pdf timeout).on o c) := by
  unfold upload
  rw [Session.on_bind, Session.on_causing]
  have hput := @on_put cfg timeout o c h path pdf pdfContentType
  revert hput
  generalize @Session.on DriveError _ _ o c = out
  intro hput
  cases hput with
  | tokenless htoken => exact .tokenless htoken
  | crashed htoken => exact .crashed htoken
  | done htoken htimeless hwork =>
    rcases hwork with ⟨hsent, hpath, rfl⟩ | ⟨put, hsent, rfl, hput⟩
    · refine .done htoken htimeless ?_
      rw [hsent]
      exact .pathless hpath
    · cases hanswer : put.answer with
      | error e =>
        refine .done htoken htimeless ?_
        rw [hsent]
        exact .sent hput (by simp [hanswer])
      | ok reply =>
        simp only [Except.mapError, Session.on_lift]
        refine .done htoken htimeless ?_
        rw [hsent]
        exact .sent hput (by simp [hanswer, delivered_eq_ok])

/-! ## Calls that are refused -/

theorem on_convert_of_unfit {xlsx : ByteArray} {name : String} (h : ¬Fit cfg xlsx name) :
    ∃ e, (convert cfg xlsx name timeout).on o c = .ended (.error e) c := by
  by_cases hfilled : xlsx.isEmpty
  · refine ⟨.emptyPayload, ?_⟩
    unfold convert
    rw [if_pos hfilled]
    rfl
  · by_cases hnamed : (Text.trim name).isEmpty
    · refine ⟨.missingFilename, ?_⟩
      unfold convert
      rw [if_neg hfilled]
      dsimp only
      rw [if_pos hnamed]
      rfl
    · have hready : ¬cfg.Ready := fun hready => h ⟨hfilled, Text.isEmpty_trim name ▸ hnamed, hready⟩
      cases hpreflight : cfg.preflight with
      | ok => exact absurd (preflight_eq_ok.1 hpreflight) hready
      | error e =>
        refine ⟨.drive e, ?_⟩
        rw [convert_of_filled hfilled hnamed]
        refine Session.on_bind_of_error ?_
        rw [Session.on_causing, store, Session.on_lift_bind_of_error hpreflight]
        rfl

theorem on_upload_of_not_ready {path : String} {pdf : ByteArray} (h : ¬cfg.Ready) :
    ∃ e, (upload cfg path pdf timeout).on o c = .ended (.error e) c := by
  cases hpreflight : cfg.preflight with
  | ok => exact absurd (preflight_eq_ok.1 hpreflight) h
  | error e =>
    refine ⟨.drive e, ?_⟩
    unfold upload
    refine Session.on_bind_of_error ?_
    rw [Session.on_causing, Session.on_lift_bind_of_error hpreflight]
    rfl

end Waybill.Drive
