import CommentedCode.Proofs.CommandLine.CommentText
import CommentedCode.Proofs.Outcome
import CommentedCode.Proofs.Text.Decoding
/-!
# Bytes that are no text

Two files are read strictly: the file of a comment and the settings file.  Bytes that encode no
text end a request either way; with the comment it is an error that the user is told about, with
the settings file, be it named or not, one that no message covers.
-/
namespace CommentedCode

private theorem Source.ofBytes?_of_undecodable {content : Utf8.Bytes} {e : Utf8.Error}
    (h : Utf8.decode? content = .error e) : ofBytes? content = .error e := by
  rw [ofBytes?, h]
  rfl

namespace Settings

private theorem ofBytes_of_undecodable (path : Path) {content : Utf8.Bytes} {e : Utf8.Error}
    (h : Utf8.decode? content = .error e) : ofBytes path content = .error (.undecodable e) := by
  rw [ofBytes, Source.ofBytes?_of_undecodable h]
  rfl

end Settings

namespace CommandLine

private theorem commentText_of_undecodable {fs : FileSystem} (input : Text) {name : Text}
    {content : Utf8.Bytes} {e : Utf8.Error} (hread : fs.read (Path.ofText name) = .ok content)
    (h : Utf8.decode? content = .error e) :
    commentText fs input ('@' :: name) = .error (.undecodableComment (Path.ofText name) e) := by
  have hfile := FileSystem.isFile_of_read hread
  rw [commentText, if_pos hfile, hread]
  dsimp only
  rw [Source.ofBytes?_of_undecodable h]

namespace Request

/-- A settings file that is no text ends every request, and no message covers the error. -/
theorem run_of_undecodable (parser : Parser) {fs : FileSystem} (debug : Bool) (input : Text)
    {request : Request} {content : Utf8.Bytes} {e : Utf8.Error}
    (hread : fs.read (Settings.source (Path.absolute fs.here) request.choices.settingsFile) =
      .ok content) (h : Utf8.decode? content = .error e) :
    request.run parser fs debug input = .error (.load (.undecodable e)) := by
  have hload := Settings.outcome_load hread
  rw [Settings.ofBytes_of_undecodable _ h] at hload
  have hsettings : (request.settings fs).outcome = .error (.load (.undecodable e)) := by
    rw [settings, Logged.outcome_bind]
    change Except.mapError _ _ >>= _ = _
    rw [hload]
    rfl
  have hanswer : (request.answer parser [] fs input).outcome = .error (.load (.undecodable e)) := by
    rw [answer, Logged.outcome_bind, hsettings]
    rfl
  exact finish_of_no_message hanswer rfl

private theorem run_of_undecodable_comment (parser : Parser) {fs : FileSystem} (debug : Bool)
    (input : Text) {r : ClassifyRequest} {name : Text} (hcomment : r.comment = '@' :: name)
    {s : Settings} (hsettings : ((classify r).settings fs).outcome = .ok s) {content : Utf8.Bytes}
    {e : Utf8.Error} (hread : fs.read (Path.ofText name) = .ok content)
    (h : Utf8.decode? content = .error e) :
    ∃ notices, (classify r).run parser fs debug input = .ok ⟨usageCode, [],
      notices ++ Text.trimRight (RunError.unreadable (Path.ofText name) e.message.toList) ++
        ['\n']⟩ := by
  have htext := commentText_of_undecodable input hread h
  have hanswer : ((classify r).answer parser [] fs input).outcome =
      .error (.undecodableComment (Path.ofText name) e) := by
    rw [answer, Logged.outcome_bind, hsettings]
    change (r.answer fs input s).outcome = _
    rw [ClassifyRequest.answer, Logged.outcome_bind, hcomment, htext]
    rfl
  exact ⟨_, finish_of_message hanswer rfl⟩

end Request

/-- Bytes that encode no text are told to the user where they stand for a comment.  Where they
stand for settings, in a file that is named or in that of the directory, the error of reading
them is left to the caller. -/
theorem run_undecodable {content : Utf8.Bytes} (h : ∀ cs, Utf8.encode cs ≠ content)
    (parser : Parser) (fs : FileSystem) (debug : Bool) (input : Text) :
    ∃ e, Utf8.decode? content = .error e ∧
      (∀ (r : ClassifyRequest) (name : Text) (s : Settings), r.comment = '@' :: name →
        fs.read (Path.ofText name) = .ok content →
        ((Request.classify r).settings fs).outcome = .ok s →
        ∃ notices, (Request.classify r).run parser fs debug input = .ok ⟨usageCode, [],
          notices ++ Text.trimRight (RunError.unreadable (Path.ofText name) e.message.toList) ++
            ['\n']⟩) ∧
      ∀ request : Request,
        fs.read (Settings.source (Path.absolute fs.here) request.choices.settingsFile) =
          .ok content →
        request.run parser fs debug input = .error (.load (.undecodable e)) ∧
          (RunError.load (.undecodable e)).userMessage? = none := by
  obtain ⟨e, he⟩ := Utf8.exists_decode?_error h
  refine ⟨e, he, ?_, ?_⟩
  · intro r name s hcomment hread hsettings
    exact Request.run_of_undecodable_comment parser debug input hcomment hsettings hread he
  · intro request hread
    exact ⟨Request.run_of_undecodable parser debug input hread he, rfl⟩

private theorem encode_ne_byte (cs : Text) : Utf8.encode cs ≠ [0xFF] := by
  intro hcs
  have hread := Utf8.decode?_eq_ok_iff.mpr hcs
  cases hread

/-- One file, which stands for a comment and for settings. -/
theorem run_undecodable_byte :
    let fs : FileSystem := ⟨.file ['c'] (some [0xFF]) .empty, []⟩
    let comment : ClassifyRequest := ⟨.empty, ['@', 'c']⟩
    let named : Request :=
      .classify ⟨{ Choices.empty with settingsFile := some ⟨[], [['c']]⟩ }, []⟩
    ((∀ cs, Utf8.encode cs ≠ [0xFF]) ∧ fs.read ⟨[], [['c']]⟩ = .ok [0xFF] ∧
        ((Request.classify comment).settings fs).outcome = .ok .default) ∧
      (∃ output, (Request.classify comment).run .lexical fs false [] = .ok output ∧
        output.code = 2) ∧
      named.run .lexical fs false [] = .error (.load (.undecodable ⟨.badStart, 0, 1, 0xFF⟩)) := by
  intro fs comment named
  have hread (anchor : Text) : fs.read ⟨anchor, [['c']]⟩ = .ok [0xFF] :=
    FileSystem.read_of_find? rfl (by decide) (by decide)
  have hsettings : ((Request.classify comment).settings fs).outcome = .ok .default := by
    rw [Request.outcome_settings_of_absent (by decide) rfl]
    rfl
  obtain ⟨e, he, hcomment, hnamed⟩ := run_undecodable encode_ne_byte .lexical fs false []
  obtain rfl := Except.error.inj he
  obtain ⟨notices, hrun⟩ := hcomment comment ['c'] .default rfl (hread []) hsettings
  exact ⟨⟨encode_ne_byte, hread [], hsettings⟩, ⟨_, hrun, rfl⟩, (hnamed named (hread _)).1⟩

/-- The settings file of the directory. -/
theorem run_undecodable_settings :
    let fs : FileSystem := ⟨.file Settings.fileName.toList (some [0xFF]) .empty, []⟩
    let request : Request := .classify ⟨.empty, "// x".toList⟩
    (∀ cs, Utf8.encode cs ≠ [0xFF]) ∧
      request.run .lexical fs false [] = .error (.load (.undecodable ⟨.badStart, 0, 1, 0xFF⟩)) ∧
      (RunError.load (.undecodable ⟨.badStart, 0, 1, 0xFF⟩)).userMessage? = none := by
  intro fs request
  have hread : fs.read (Settings.source (Path.absolute fs.here) request.choices.settingsFile) =
      .ok [0xFF] :=
    FileSystem.read_of_find? rfl (by decide) (by decide)
  exact ⟨encode_ne_byte, Request.run_of_undecodable .lexical false [] hread rfl, rfl⟩

end CommandLine
end CommentedCode
