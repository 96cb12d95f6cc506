import Dcp.Cli.StdioDiscipline
import Dcp.Transport.StdioBuffering

/-!
The message loop of the stdio server. Whatever comes in and however the buffer shows it, the loop
writes one line for every reply, in the order of the messages, and ends with its input or at the
first operation on its output that fails. What a reply can say is short, so that the transport
refuses none, and the handler never fails.
-/

namespace Dcp
open Library
open StdioTransport StdioSessionState

inductive StdioEnding
  | writeError (e : IoError)
  | terminated
  | readError (e : IoError)

namespace StdioServer
variable (codec : JsonCodec)

def internalError : String :=
  "\x7b\"jsonrpc\":\"2.0\",\"error\":\x7b\"code\":-32603,\"message\":\"Internal error\"\x7d," ++
    "\"id\":null\x7d"

/-- The loop from some point on, with what was written and the session. -/
def serve (transport : StdioTransport) (reader : BufReader) (writer : StdioWriter)
    (session : StdioSessionState) : StdioEnding × StdioWriter × StdioSessionState :=
  match _h : readMessage transport reader with
  | (.error e, _, _) => (.readError e, writer, session)
  | (.ok none, _, _) => (.terminated, writer, session)
  | (.ok (some message), transport, reader) =>
      match handleStdioMessageWithSession codec message session with
      | (.ok none, session) => serve transport reader writer session
      | (.ok (some response), session) =>
          match writeMessage transport writer response with
          | (.error e, writer) => (.writeError e, writer, session)
          | (.ok (), writer) => serve transport reader writer session
      | (.error _, session) =>
          serve transport reader (writeMessage transport writer internalError).2 session
termination_by reader.rest.length
decreasing_by all_goals exact rest_lt_of_readMessage _h

/-- The loop on this input, with these operations on the output failing. -/
def runStdioMode (faults : List (Option WriteFault)) (reader : BufReader) :
    StdioEnding × StdioWriter × StdioSessionState :=
  serve codec (withConfig {}) reader ⟨[], 0, faults⟩ {}

/-- What the loop does with the messages that are read, and the error of the write that ends it. -/
def serveMessages (writer : StdioWriter) (session : StdioSessionState) :
    List String → Option IoError × StdioWriter × StdioSessionState
  | [] => (none, writer, session)
  | message :: messages =>
      match handleStdioMessageWithSession codec message session with
      | (.ok none, session) => serveMessages writer session messages
      | (.ok (some response), session) =>
          match writeMessage (withConfig {}) writer response with
          | (.error e, writer) => (some e, writer, session)
          | (.ok (), writer) => serveMessages writer session messages
      | (.error _, session) =>
          serveMessages (writeMessage (withConfig {}) writer internalError).2 session messages

def handled (session : StdioSessionState) (messages : List String) :
    List (Except String (Option String)) × StdioSessionState :=
  answers (fun session message => handleStdioMessageWithSession codec message session) session
    messages

/-- The kind of the error that ended the loop with the input. -/
def StdioEnding.inputError : StdioEnding → Option (Option IoErrorKind)
  | .writeError _ => none
  | .terminated => some none
  | .readError e => some (some e.kind)

def owedId : Except JsonRpcParseError JsonRpcRequest → RequestId
  | .ok request => if request.isNotification then .null else request.id
  | .error _ => .null

/-- The reply is one line that is read as a response under the id of the message; only a
notification has none. -/
structure RepliedTo (message : String) (reply : Option String) : Prop where
  line : ∀ text ∈ reply, NoLineEnd text.toList ∧ ∃ response,
    JsonRpcParser.parseResponse codec text = .ok response ∧
      response.id = owedId (JsonRpcParser.parseRequest codec message)
  silent : reply = none → ∃ request,
    JsonRpcParser.parseRequest codec message = .ok request ∧ request.isNotification = true

def sessionAfter (session : StdioSessionState) (messages : List String) : StdioSessionState :=
  messages.foldl (fun session message => (handleStdioMessageWithSession codec message session).2)
    session

def output (replies : List (Option String)) : List UInt8 :=
  unlines newline (replies.reduceOption.map utf8)

/-- How the loop serves messages: throughout, when the two operations for each line go well, or up
to the first operation that fails, which is the write or the flush of the line for some message. -/
inductive Served (start : StdioWriter) (session : StdioSessionState) :
    List String → List (Option String) → Option IoError × StdioWriter × StdioSessionState → Prop
  | throughout {messages : List String} {replies : List (Option String)} {writer : StdioWriter}
      (hclean : ∀ k < 2 * replies.reduceOption.length, start.fault k = none)
      (hwritten : writer.written = start.written ++ output replies)
      (hflushed : writer.flushed = writer.written.length) :
      Served start session messages replies (none, writer, sessionAfter codec session messages)
  | writeFailed (front : List String) (earlier : List (Option String)) {back : List String}
      {message text : String} {later : List (Option String)} {fault : WriteFault}
      {writer : StdioWriter}
      (hlength : front.length = earlier.length)
      (hclean : ∀ k < 2 * earlier.reduceOption.length, start.fault k = none)
      (hfault : start.fault (2 * earlier.reduceOption.length) = some fault)
      (hwritten : writer.written =
        start.written ++ (output earlier ++ (utf8 text ++ [newline]).take fault.taken))
      (hflushed : writer.flushed = (start.written ++ output earlier).length) :
      Served start session (front ++ message :: back) (earlier ++ some text :: later)
        (some fault.error, writer, sessionAfter codec session (front ++ [message]))
  | flushFailed (front : List String) (earlier : List (Option String)) {back : List String}
      {message text : String} {later : List (Option String)} {fault : WriteFault}
      {writer : StdioWriter}
      (hlength : front.length = earlier.length)
      (hclean : ∀ k < 2 * earlier.reduceOption.length + 1, start.fault k = none)
      (hfault : start.fault (2 * earlier.reduceOption.length + 1) = some fault)
      (hwritten : writer.written = start.written ++ (output earlier ++ (utf8 text ++ [newline])))
      (hflushed : (start.written ++ output earlier).length ≤ writer.flushed ∧
        writer.flushed ≤ writer.written.length) :
      Served start session (front ++ message :: back) (earlier ++ some text :: later)
        (some fault.error, writer, sessionAfter codec session (front ++ [message]))

variable {codec}

theorem serve_unfold (transport : StdioTransport) (reader : BufReader) (writer : StdioWriter)
    (session : StdioSessionState) :
    serve codec transport reader writer session =
      match readMessage transport reader with
      | (.error e, _, _) => (.readError e, writer, session)
      | (.ok none, _, _) => (.terminated, writer, session)
      | (.ok (some message), transport, reader) =>
          match handleStdioMessageWithSession codec message session with
          | (.ok none, session) => serve codec transport reader writer session
          | (.ok (some response), session) =>
              match writeMessage transport writer response with
              | (.error e, writer) => (.writeError e, writer, session)
              | (.ok (), writer) => serve codec transport reader writer session
          | (.error _, session) =>
              serve codec transport reader (writeMessage transport writer internalError).2
                session := by
  rw [serve]
  split <;>
  · next heq => rw [heq]

theorem readMessage_open {transport transport' : StdioTransport} {reader reader' : BufReader}
    {message : String} (hopen : transport.isShutdown = false)
    (h : readMessage transport reader = (.ok (some message), transport', reader')) :
    transport'.isShutdown = false ∧ transport'.config = transport.config := by
  induction hlength : reader.rest.length using Nat.strong_induction_on
    generalizing transport reader with
  | _ length ih =>
      have hspec := readLineBounded_start transport reader
      rw [readMessage_eq hopen] at h
      generalize hline :
        readLineBounded { transport with readBuffer := "" } reader = result at hspec h
      cases hspec with
      | eof hnil => cases h
      | refused hkind hlines hrefused => cases h
      | @line transport₁ reader₁ hlines hsize hconfig hshutdown =>
          have hless := rest_lt_of_readLineBounded rfl hline
          dsimp only at h
          split at h
          · obtain ⟨hopen', hconfig'⟩ := ih _ (hlength ▸ hless) (hshutdown.trans hopen) h rfl
            exact ⟨hopen', hconfig'.trans hconfig⟩
          · cases h
            exact ⟨hshutdown.trans hopen, hconfig⟩

theorem exists_inputError (inputEnd : Option IoErrorKind) :
    ∃ ending, StdioEnding.inputError ending = some inputEnd :=
  match inputEnd with
  | none => ⟨.terminated, rfl⟩
  | some kind => ⟨.readError ⟨kind, ""⟩, rfl⟩

/-- The loop reads its messages as if it did nothing else, and serves them as if they were all
there. -/
theorem serve_eq {transport : StdioTransport} (reader : BufReader) (writer : StdioWriter)
    (session : StdioSessionState) (hopen : transport.isShutdown = false)
    (hconfig : transport.config = {}) :
    let read := readMessages transport reader
    let served := serveMessages codec writer session read.1
    ∃ ending, StdioEnding.inputError ending = some read.2 ∧
      serve codec transport reader writer session =
        ((served.1.map .writeError).getD ending, served.2) := by
  induction hlength : reader.rest.length using Nat.strong_induction_on
    generalizing transport reader writer session with
  | _ length ih =>
      obtain ⟨result, transport', reader', hread⟩ :
          ∃ result transport' reader',
            readMessage transport reader = (result, transport', reader') :=
        ⟨_, _, _, rfl⟩
      rw [readMessages_eq, serve_unfold, hread]
      rcases result with e | none | message
      · exact ⟨.readError e, rfl, rfl⟩
      · exact ⟨.terminated, rfl, rfl⟩
      · obtain ⟨hopen', hconfig'⟩ := readMessage_open hopen hread
        have hless := rest_lt_of_readMessage hread
        have hwrite : ∀ text, writeMessage transport' writer text =
            writeMessage (withConfig {}) writer text := by
          intro text
          rw [writeMessage, writeMessage, hopen', hconfig', hconfig]
          rfl
        have hnext := fun writer session => ih _ (hlength ▸ hless) reader' writer session hopen'
          (hconfig'.trans hconfig) rfl
        dsimp only
        rw [serveMessages]
        split
        · exact hnext writer _
        · next response session' hhandle =>
            rw [hwrite]
            split
            · obtain ⟨ending, hending⟩ := exists_inputError (readMessages transport' reader').2
              exact ⟨ending, hending, rfl⟩
            · exact hnext _ _
        · rw [hwrite]
          exact hnext _ _

/-- What becomes of a line: a part of it is written, or all of it but it is not flushed, or it is
written and flushed. -/
inductive LineWritten (writer : StdioWriter) (line : List UInt8) :
    Except IoError Unit × StdioWriter → Prop
  | cut {fault : WriteFault} {writer' : StdioWriter} (hfault : writer.fault 0 = some fault)
      (hwritten : writer'.written = writer.written ++ line.take fault.taken)
      (hflushed : writer'.flushed = writer.flushed) :
      LineWritten writer line (.error fault.error, writer')
  | unflushed {fault : WriteFault} {writer' : StdioWriter} (hfirst : writer.fault 0 = none)
      (hfault : writer.fault 1 = some fault) (hwritten : writer'.written = writer.written ++ line)
      (hflushed : writer'.flushed =
        min (writer.flushed + fault.taken) (writer.written ++ line).length) :
      LineWritten writer line (.error fault.error, writer')
  | done {writer' : StdioWriter} (hfirst : writer.fault 0 = none) (hsecond : writer.fault 1 = none)
      (hshift : ∀ k, writer'.fault k = writer.fault (k + 2))
      (hwritten : writer'.written = writer.written ++ line)
      (hflushed : writer'.flushed = writer'.written.length) :
      LineWritten writer line (.ok (), writer')

theorem lineWritten_writeMessage {text : String} (writer : StdioWriter)
    (hsize : text.utf8ByteSize ≤ ({} : StdioConfig).maxMessageSize) :
    LineWritten writer (utf8 text ++ [newline]) (writeMessage (withConfig {}) writer text) := by
  have hopen : ¬ (withConfig {}).isShutdown = true := Bool.false_ne_true
  have hsize' : ¬ text.utf8ByteSize > (withConfig {}).config.maxMessageSize := Nat.not_lt.mpr hsize
  have hflush : (withConfig {}).config.autoFlush = true := rfl
  have hline : utf8 (text ++ "\n") = utf8 text ++ [newline] := utf8_append text "\n"
  rw [writeMessage, if_neg hopen, if_neg hsize', hline, StdioWriter.writeAll, hflush]
  cases hfirst : writer.fault 0 with
  | some fault => exact .cut hfirst rfl rfl
  | none =>
      have hnext : ∀ written k, StdioWriter.fault ⟨written, writer.flushed, writer.faults.tail⟩ k =
          writer.fault (k + 1) := fun written k => StdioWriter.fault_tail written _ k _
      dsimp only
      rw [if_pos rfl, StdioWriter.flush, hnext]
      cases hsecond : writer.fault (0 + 1) with
      | some fault => exact .unflushed hfirst hsecond rfl rfl
      | none =>
          refine .done hfirst hsecond (fun k => ?_) rfl rfl
          exact (StdioWriter.fault_tail _ _ k _).trans (hnext [] (k + 1))

section Served
variable {writer writer' : StdioWriter} {session session' : StdioSessionState}
  {message text : String} {messages : List String} {reply : Option String}
  {replies : List (Option String)}
  {result : Option IoError × StdioWriter × StdioSessionState}

theorem output_cons (text : String) (replies : List (Option String)) :
    output (some text :: replies) = utf8 text ++ [newline] ++ output replies := rfl

theorem Served.silent
    (hsession : (handleStdioMessageWithSession codec message session).2 = session')
    (h : Served codec writer session' messages replies result) :
    Served codec writer session (message :: messages) (none :: replies) result := by
  subst hsession
  cases h with
  | throughout hclean hwritten hflushed => exact .throughout hclean hwritten hflushed
  | @writeFailed front earlier _ _ _ _ _ _ hlength hclean hfault hwritten hflushed =>
      exact .writeFailed (message :: front) (none :: earlier)
        (congrArg Nat.succ hlength) hclean hfault hwritten hflushed
  | @flushFailed front earlier _ _ _ _ _ _ hlength hclean hfault hwritten hflushed =>
      exact .flushFailed (message :: front) (none :: earlier)
        (congrArg Nat.succ hlength) hclean hfault hwritten hflushed

theorem clean_line {n : Nat} (hshift : ∀ k, writer'.fault k = writer.fault (k + 2))
    (hfirst : writer.fault 0 = none) (hsecond : writer.fault 1 = none)
    (hclean : ∀ k < n, writer'.fault k = none) : ∀ k < n + 2, writer.fault k = none := by
  intro k hk
  match k with
  | 0 => exact hfirst
  | 1 => exact hsecond
  | k + 2 => exact hshift k ▸ hclean k (by omega)

theorem Served.line
    (hsession : (handleStdioMessageWithSession codec message session).2 = session')
    (hshift : ∀ k, writer'.fault k = writer.fault (k + 2)) (hfirst : writer.fault 0 = none)
    (hsecond : writer.fault 1 = none)
    (hline : writer'.written = writer.written ++ (utf8 text ++ [newline]))
    (h : Served codec writer' session' messages replies result) :
    Served codec writer session (message :: messages) (some text :: replies) result := by
  subst hsession
  have hoperations : ∀ replies : List (Option String),
      2 * (some text :: replies).reduceOption.length = 2 * replies.reduceOption.length + 2 :=
    fun _ => rfl
  have hstart : ∀ replies more, writer'.written ++ (output replies ++ more) =
      writer.written ++ (output (some text :: replies) ++ more) := by
    intro replies more
    rw [hline, output_cons]
    simp only [List.append_assoc]
  have hwhole : ∀ replies, writer'.written ++ output replies =
      writer.written ++ output (some text :: replies) := by
    intro replies
    simpa using hstart replies []
  cases h with
  | throughout hclean hwritten hflushed =>
      refine .throughout ?_ (hwritten.trans (hwhole _)) hflushed
      rw [hoperations]
      exact clean_line hshift hfirst hsecond hclean
  | @writeFailed front earlier _ _ _ _ _ _ hlength hclean hfault hwritten hflushed =>
      refine .writeFailed (message :: front) (some text :: earlier)
        (congrArg Nat.succ hlength) ?_ ?_ (hwritten.trans (hstart _ _)) (hwhole earlier ▸ hflushed)
      · rw [hoperations]
        exact clean_line hshift hfirst hsecond hclean
      · rw [hoperations, ← hshift]
        exact hfault
  | @flushFailed front earlier _ _ _ _ _ _ hlength hclean hfault hwritten hflushed =>
      refine .flushFailed (message :: front) (some text :: earlier)
        (congrArg Nat.succ hlength) ?_ ?_ (hwritten.trans (hstart _ _)) (hwhole earlier ▸ hflushed)
      · rw [hoperations]
        exact clean_line hshift hfirst hsecond hclean
      · rw [hoperations, ← hshift]
        exact hfault

end Served

section
variable (hcodec : codec.Compact 3)
include hcodec

theorem size_le_of_handled {message text : String} {session session' : StdioSessionState}
    (h : handleStdioMessageWithSession codec message session = (.ok (some text), session')) :
    text.utf8ByteSize ≤ ({} : StdioConfig).maxMessageSize ∧ NoLineEnd text.toList := by
  obtain ⟨reply, after, hmove, hhandle⟩ := handle_move hcodec message session
  rw [hhandle] at h
  cases reply with
  | none => cases h
  | some reply =>
      obtain ⟨id, said⟩ := reply
      cases h
      have hid := hmove.valid rfl
      have htext := said.length_text_le id
      have hlength := StdioReply.length_id_le hid
      have hbytes := utf8ByteSize_le (said.text id)
      have hlimit : ({} : StdioConfig).maxMessageSize = 10485760 := rfl
      refine ⟨?_, JsonCodec.noLineEnd_printText _⟩
      change (said.text id).utf8ByteSize ≤ _
      omega

theorem repliedTo_handled (message : String) (session : StdioSessionState) :
    ∃ reply session', handleStdioMessageWithSession codec message session = (.ok reply, session') ∧
      RepliedTo codec message reply := by
  obtain ⟨reply, after, hmove, hhandle⟩ := handle_move hcodec message session
  refine ⟨_, _, hhandle, ?_, ?_⟩
  · intro text htext
    obtain ⟨⟨id, said⟩, rfl, rfl⟩ := Option.map_eq_some_iff.mp htext
    have hvalid := hmove.valid rfl
    have hid : id = owedId (JsonRpcParser.parseRequest codec message) := by
      generalize JsonRpcParser.parseRequest codec message = parsed at hmove
      cases hmove with
      | unparsed => rfl
      | refused hnotification => simp [owedId, hnotification]
      | welcome hid | gated hid | other hid => simp [owedId, hid]
    exact ⟨JsonCodec.noLineEnd_printText _, _, said.parse_text hcodec hvalid,
      (said.response_id id).trans hid⟩
  · intro hnone
    generalize JsonRpcParser.parseRequest codec message = parsed at hmove
    cases hmove with
    | ready hnotification | cancelled hnotification => exact ⟨_, rfl, hnotification⟩
    | unparsed | refused | welcome | gated | other => cases hnone

theorem served {writer : StdioWriter} (hflushed : writer.flushed = writer.written.length)
    (session : StdioSessionState) (messages : List String) :
    ∃ replies, List.Forall₂ (RepliedTo codec) messages replies ∧
      Served codec writer session messages replies
        (serveMessages codec writer session messages) := by
  induction messages generalizing writer session with
  | nil =>
      exact ⟨[], .nil, .throughout (fun _ hk => absurd hk (Nat.not_lt_zero _))
        (List.append_nil _).symm hflushed⟩
  | cons message messages ih =>
      obtain ⟨reply, session', hhandle, hreply⟩ := repliedTo_handled hcodec message session
      have hsession : (handleStdioMessageWithSession codec message session).2 = session' :=
        congrArg Prod.snd hhandle
      rw [serveMessages, hhandle]
      cases reply with
      | none =>
          obtain ⟨replies, hreplies, hserved⟩ := ih hflushed session'
          exact ⟨none :: replies, .cons hreply hreplies, hserved.silent hsession⟩
      | some text =>
          have hsize := (size_le_of_handled hcodec hhandle).1
          have hwrite := lineWritten_writeMessage writer hsize
          obtain ⟨later, hlater, -⟩ := ih hflushed session'
          dsimp only
          generalize writeMessage (withConfig {}) writer text = result at hwrite ⊢
          cases hwrite with
          | cut hfault hwritten hkept =>
              refine ⟨some text :: later, .cons hreply hlater, hsession ▸ ?_⟩
              refine .writeFailed [] [] rfl nofun hfault hwritten ?_
              rw [hkept, hflushed]
              exact congrArg List.length (List.append_nil _).symm
          | unflushed hfirst hfault hwritten hkept =>
              refine ⟨some text :: later, .cons hreply hlater, hsession ▸ ?_⟩
              refine .flushFailed [] [] rfl ?_ hfault hwritten ⟨?_, ?_⟩
              · intro k hk
                obtain rfl : k = 0 := Nat.lt_one_iff.mp hk
                exact hfirst
              · have hstart : writer.written ++ output [] = writer.written := List.append_nil _
                rw [hstart, hkept, hflushed, List.length_append]
                exact Nat.le_min.mpr ⟨Nat.le_add_right _ _, Nat.le_add_right _ _⟩
              · rw [hkept, hwritten]
                exact Nat.min_le_right _ _
          | done hfirst hsecond hshift hwritten hflushed' =>
              obtain ⟨replies, hreplies, hserved⟩ := ih hflushed' session'
              exact ⟨some text :: replies, .cons hreply hreplies,
                hserved.line hsession hshift hfirst hsecond hwritten⟩

/-- For every input and whatever operations on the output fail, every message that is read has its
reply, and the replies are written, one line for each, until the first operation for them that
fails: the server ends then, and otherwise with its input. It leaves the session that the messages
it came to lead to. What is shown of the input at a time makes no difference where it makes none to
the reading. -/
theorem stdio_served (reader : BufReader) (faults : List (Option WriteFault)) :
    let read := readMessages (withConfig {}) reader
    (∃ ending replies stopped writer session, StdioEnding.inputError ending = some read.2 ∧
      List.Forall₂ (RepliedTo codec) read.1 replies ∧
      Served codec ⟨[], 0, faults⟩ {} read.1 replies (stopped, writer, session) ∧
      runStdioMode codec faults reader =
        ((stopped.map .writeError).getD ending, writer, session)) ∧
    (SafelyCut ({} : StdioConfig).maxMessageSize (endedLines newline reader.rest) →
      ∀ reader' : BufReader, reader'.rest = reader.rest →
        (runStdioMode codec faults reader').2 = (runStdioMode codec faults reader).2) := by
  have hserve : ∀ reader : BufReader,
      let served := serveMessages codec ⟨[], 0, faults⟩ {} (readMessages (withConfig {}) reader).1
      ∃ ending, StdioEnding.inputError ending = some (readMessages (withConfig {}) reader).2 ∧
        runStdioMode codec faults reader = ((served.1.map .writeError).getD ending, served.2) :=
    fun reader => serve_eq reader _ {} rfl rfl
  refine ⟨?_, ?_⟩
  · obtain ⟨ending, hending, hrun⟩ := hserve reader
    obtain ⟨replies, hreplies, hserved⟩ :=
      @served _ hcodec ⟨[], 0, faults⟩ rfl {} (readMessages (withConfig {}) reader).1
    exact ⟨ending, replies, _, _, _, hending, hreplies, hserved, hrun⟩
  · intro hsafe reader' hrest
    obtain ⟨_, -, hrun⟩ := hserve reader
    obtain ⟨_, -, hrun'⟩ := hserve reader'
    have hread : readMessages (withConfig {}) reader' = readMessages (withConfig {}) reader := by
      rw [readMessages_eq_uncut hsafe, readMessages_eq_uncut (hrest ▸ hsafe), hrest]
    rw [hrun, hrun', hread]

end

/-- Two pings with a text that is no message and a notification between them. -/
def talk : List String :=
  [ "\x7b\"jsonrpc\":\"2.0\",\"id\":1,\"method\":\"ping\"\x7d", "?",
    "\x7b\"jsonrpc\":\"2.0\",\"method\":\"notifications/initialized\"\x7d",
    "\x7b\"jsonrpc\":\"2.0\",\"id\":2,\"method\":\"ping\"\x7d" ]

def talkBytes : List UInt8 := unlines newline (talk.map utf8)

/-- There is room for the first line and three bytes of the second. -/
def noSpace : List (Option WriteFault) :=
  [none, none, some ⟨3, ⟨.other, "No space left on device"⟩⟩]

theorem sendable_talk : ∀ message ∈ talk, Sendable message := by
  have h : ∀ message ∈ talk, message.isEmpty = false ∧ '\n' ∉ message.toList ∧
      trimEnd message = message := by
    decide +kernel
  intro message hmessage
  obtain ⟨hnonempty, honeLine, htrimmed⟩ := h message hmessage
  exact ⟨hnonempty, honeLine, htrimmed⟩

theorem ascii_talk : ∀ message ∈ talk, ∀ c ∈ message.toList, c.toNat < 128 := by
  have h : talk.all (fun message => message.toList.all fun c => c.toNat < 128) = true := by
    decide +kernel
  exact fun message hmessage => ascii_of_all (List.all_eq_true.mp h message hmessage)

/-- The second line cannot be written, however the four messages come in. -/
theorem stdio_served_noSpace :
    (∃ ending replies stopped writer session,
      List.Forall₂ (RepliedTo .reference) talk replies ∧
      Served .reference ⟨[], 0, noSpace⟩ {} talk replies (stopped, writer, session) ∧
      runStdioMode .reference noSpace (.ofChunks [talkBytes]) =
        ((stopped.map .writeError).getD ending, writer, session)) ∧
    (runStdioMode .reference noSpace (.ofChunks (talkBytes.map fun b => [b]))).2 =
      (runStdioMode .reference noSpace (.ofChunks [talkBytes])).2 := by
  have hrest := BufReader.rest_ofChunks_singleton talkBytes
  have hlines : endedLines newline (BufReader.ofChunks [talkBytes]).rest =
      talk.map fun message => utf8 (message ++ "\n") := by
    rw [hrest]
    exact endedLines_messages sendable_talk
  have hread : readMessages (withConfig {}) (.ofChunks [talkBytes]) = (talk, none) := by
    refine readMessages_lines sendable_talk (fun message hmessage => ⟨?_, ?_⟩) hlines
    · have hshort : ∀ message ∈ talk,
          message.utf8ByteSize < ({} : StdioConfig).maxMessageSize := by decide +kernel
      exact hshort message hmessage
    · exact ascii_talk message hmessage
  obtain ⟨⟨ending, replies, stopped, writer, session, -, hreplies, hserved, hrun⟩, hcut⟩ :=
    stdio_served (JsonCodec.reference_compact 3) (.ofChunks [talkBytes]) noSpace
  rw [hread] at hreplies hserved
  refine ⟨⟨ending, replies, stopped, writer, session, hreplies, hserved, hrun⟩, ?_⟩
  refine hcut (safelyCut_lines ascii_talk hlines) _ ?_
  rw [BufReader.rest_ofChunks, hrest]
  exact List.flatMap_singleton' talkBytes

end StdioServer
end Dcp
