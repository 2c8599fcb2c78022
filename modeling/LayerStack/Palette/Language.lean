import LayerStack.Fault

/-! The languages of the palette and what is shown in them: a name and a description for each kind
of layer, and a label for each field. -/

namespace LayerStack

inductive Language where
  | en
  | ko
  deriving DecidableEq, Repr

namespace Language

def all : List Language := [.en, .ko]

def code : Language → String
  | .en => "en"
  | .ko => "ko"

/-- The name of a language in that language. -/
def label : Language → String
  | .en => "English"
  | .ko => "한국어"

def flag : Language → String
  | .en => "🇺🇸"
  | .ko => "🇰🇷"

def ofCode? (s : String) : Option Language := all.find? fun language => decide (language.code = s)

theorem ofCode?_code (language : Language) : ofCode? language.code = some language := by
  cases language <;> decide

/-- The language that a value names; English if it names none. -/
def ofValue (value : Value) : Except Fault Language :=
  (value.lookUp ofCode?).map fun language => language.getD .en

def options : Value :=
  .list (all.map fun language => .obj [
    ("code", .str language.code), ("label", .str language.label), ("flag", .str language.flag)])

end Language

/-- What is shown in one language: for each kind of layer its name and its description, and the
labels of the fields by key. -/
structure Strings where
  title : String
  subtitle : String
  layer : Kind → String × String
  fields : Entries String String

namespace Strings

def english : Strings where
  title := "LayerCal"
  subtitle := "Deep learning model parameter calculator"
  layer := fun
    | .embedding => ("Embedding", "Maps token ids to dense vectors")
    | .linear => ("Linear", "Fully connected layer")
    | .conv2d => ("Conv2D", "2D convolution over an image")
    | .lstm => ("LSTM", "Long short-term memory recurrent layer")
    | .gru => ("GRU", "Gated recurrent unit layer")
    | .transformer => ("Transformer", "Encoder block: attention + feed-forward")
    | .attention => ("Attention", "Multi-head self-attention")
    | .batchnorm => ("BatchNorm", "Normalizes activations over the batch")
    | .layernorm => ("LayerNorm", "Normalizes activations over features")
    | .dropout => ("Dropout", "Randomly zeroes activations while training")
    | .maxpool2d => ("MaxPool2D", "Takes the maximum over each window")
    | .avgpool2d => ("AvgPool2D", "Takes the average over each window")
    | .relu => ("ReLU", "Rectified linear activation")
    | .softmax => ("Softmax", "Turns logits into probabilities")
  fields := [
    ("vocab_size", "Vocabulary size"),
    ("embedding_dim", "Embedding dim"),
    ("input_dim", "Input dim"),
    ("output_dim", "Output dim"),
    ("use_bias", "Use bias"),
    ("in_channels", "In channels"),
    ("out_channels", "Out channels"),
    ("kernel_size", "Kernel size"),
    ("input_size", "Input size"),
    ("hidden_size", "Hidden size"),
    ("num_layers", "Num layers"),
    ("bidirectional", "Bidirectional"),
    ("d_model", "Model dim"),
    ("num_heads", "Num heads"),
    ("d_ff", "FFN dim"),
    ("dropout", "Dropout"),
    ("num_features", "Num features"),
    ("normalized_shape", "Num features"),
    ("rate", "Dropout rate")]

def korean : Strings where
  title := "LayerCal"
  subtitle := "딥러닝 모델 파라미터 계산기"
  layer := fun
    | .embedding => ("임베딩", "토큰 ID를 밀집 벡터로 변환")
    | .linear => ("선형", "완전연결 레이어")
    | .conv2d => ("Conv2D", "이미지에 대한 2D 컨볼루션")
    | .lstm => ("LSTM", "장단기 메모리 순환 레이어")
    | .gru => ("GRU", "게이트 순환 유닛 레이어")
    | .transformer => ("트랜스포머", "인코더 블록: 어텐션 + 피드포워드")
    | .attention => ("어텐션", "멀티헤드 셀프 어텐션")
    | .batchnorm => ("배치 정규화", "배치 단위로 활성값 정규화")
    | .layernorm => ("레이어 정규화", "특징 단위로 활성값 정규화")
    | .dropout => ("드롭아웃", "학습 중 활성값을 무작위로 0으로 설정")
    | .maxpool2d => ("MaxPool2D", "각 윈도우의 최댓값")
    | .avgpool2d => ("AvgPool2D", "각 윈도우의 평균값")
    | .relu => ("ReLU", "ReLU 활성화 함수")
    | .softmax => ("Softmax", "로짓을 확률로 변환")
  fields := [
    ("vocab_size", "어휘 크기"),
    ("embedding_dim", "임베딩 차원"),
    ("input_dim", "입력 차원"),
    ("output_dim", "출력 차원"),
    ("use_bias", "편향 사용"),
    ("in_channels", "입력 채널"),
    ("out_channels", "출력 채널"),
    ("kernel_size", "커널 크기"),
    ("input_size", "입력 크기"),
    ("hidden_size", "은닉 크기"),
    ("num_layers", "레이어 수"),
    ("bidirectional", "양방향"),
    ("d_model", "모델 차원"),
    ("num_heads", "헤드 수"),
    ("d_ff", "FFN 차원"),
    ("dropout", "드롭아웃"),
    ("num_features", "특징 수"),
    ("normalized_shape", "특징 수"),
    ("rate", "드롭아웃 비율")]

/-- The label of the field of the given key, which stands for itself if it has none. -/
def fieldLabel (strings : Strings) (key : String) : String :=
  (strings.fields.get? key).getD key

def toValue (strings : Strings) : Value :=
  .obj [
    ("title", .str strings.title),
    ("subtitle", .str strings.subtitle),
    ("layers", .obj (Kind.all.map fun kind =>
      (kind.name, .list [.str (strings.layer kind).1, .str (strings.layer kind).2]))),
    ("fields", .obj (strings.fields.map fun entry => (entry.1, .str entry.2)))]

end Strings

def Language.strings : Language → Strings
  | .en => .english
  | .ko => .korean

end LayerStack
