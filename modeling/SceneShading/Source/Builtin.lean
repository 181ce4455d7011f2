/-!
# The shader library

The files that generated programs include, and the skeleton that wraps them. A file is given by its
lines, each of which ends with a line feed.
-/

namespace SceneShading.Source.Builtin

/-- The text of a file. -/
def ofLines (lines : List String) : String := String.join (lines.map (· ++ "\n"))

/-- Positions of geometry that faces the viewer. -/
def billboard : String := ofLines [
  "// Keeps the model-view scale and translation, drops its rotation.",
  "vec4 billboard(const in vec3 vertex, const in mat4 modelViewMatrix, const in mat4 projectionMatrix) \x7b",
  "    mat4 view = modelViewMatrix;",
  "    view[0].xyz = vec3(length(modelViewMatrix[0].xyz), 0.0, 0.0);",
  "    view[1].xyz = vec3(0.0, length(modelViewMatrix[1].xyz), 0.0);",
  "    view[2].xyz = vec3(0.0, 0.0, length(modelViewMatrix[2].xyz));",
  "    return projectionMatrix * view * vec4(vertex, 1.0);",
  "\x7d"]

/-- Color spaces, packed colors and normals. -/
def functions : String := ofLines [
  "// Color space and packing helpers.",
  "",
  "#define LIN_SRGB(x) ( x < 0.0031308 ? x * 12.92 : 1.055 * pow(x, 1.0 / 2.4) - 0.055 )",
  "#define SRGB_LIN(x) ( x < 0.04045 ? x * (1.0 / 12.92) : pow((x + 0.055) * (1.0 / 1.055), 2.4) )",
  "",
  "float linearTosRGB(const in float color) \x7b",
  "    return LIN_SRGB(color);",
  "\x7d",
  "",
  "vec3 linearTosRGB(const in vec3 color) \x7b",
  "    return vec3(LIN_SRGB(color.r), LIN_SRGB(color.g), LIN_SRGB(color.b));",
  "\x7d",
  "",
  "vec4 linearTosRGB(const in vec4 color) \x7b",
  "    return vec4(linearTosRGB(color.rgb), color.a);",
  "\x7d",
  "",
  "float sRGBToLinear(const in float color) \x7b",
  "    return SRGB_LIN(color);",
  "\x7d",
  "",
  "vec3 sRGBToLinear(const in vec3 color) \x7b",
  "    return vec3(SRGB_LIN(color.r), SRGB_LIN(color.g), SRGB_LIN(color.b));",
  "\x7d",
  "",
  "vec4 sRGBToLinear(const in vec4 color) \x7b",
  "    return vec4(sRGBToLinear(color.rgb), color.a);",
  "\x7d",
  "",
  "// http://graphicrants.blogspot.fr/2009/04/rgbm-color-encoding.html",
  "vec3 decodeRGBM(const in vec4 rgbm, const in float range) \x7b",
  "    return range * rgbm.rgb * rgbm.a;",
  "\x7d",
  "",
  "vec4 encodeRGBM(const in vec3 color, const in float range) \x7b",
  "    if (range <= 0.0) \x7b",
  "        return vec4(color, 1.0);",
  "    \x7d",
  "    vec4 rgbm;",
  "    vec3 scaled = color / range;",
  "    rgbm.a = clamp(max(max(scaled.r, scaled.g), max(scaled.b, 1e-6)), 0.0, 1.0);",
  "    rgbm.a = ceil(rgbm.a * 255.0) / 255.0;",
  "    rgbm.rgb = scaled / rgbm.a;",
  "    return rgbm;",
  "\x7d"]

/-- Shading by the light models. -/
def lights : String := ofLines [
  "// Light shading. Every model writes the eye space light direction, N.L and",
  "// whether the fragment is lit, so shadow code can reuse them. The view space",
  "// fragment position comes from the vViewVertex varying.",
  "",
  "float getLightAttenuation(const in float dist, const in vec4 lightAttenuation) \x7b",
  "    float constant = lightAttenuation.x;",
  "    float linear = lightAttenuation.y * dist;",
  "    float quadratic = lightAttenuation.z * dist * dist;",
  "    return 1.0 / max(constant + linear + quadratic, 1e-4);",
  "\x7d",
  "",
  "vec3 computeLightContribution(const in vec3 materialDiffuse,",
  "                              const in vec3 materialSpecular,",
  "                              const in float materialShininess,",
  "                              const in vec3 lightDiffuse,",
  "                              const in vec3 lightSpecular,",
  "                              const in vec3 normal,",
  "                              const in vec3 eyeVector,",
  "                              const in vec3 lightDirection,",
  "                              const in float NdotL) \x7b",
  "    vec3 diffuse = materialDiffuse * lightDiffuse * NdotL;",
  "    vec3 halfVector = normalize(lightDirection + eyeVector);",
  "    float NdotH = max(dot(normal, halfVector), 0.0);",
  "    vec3 specular = materialSpecular * lightSpecular * pow(NdotH, materialShininess);",
  "    return diffuse + specular;",
  "\x7d",
  "",
  "vec3 computePointLightShading(const in vec3 normal,",
  "                              const in vec3 eyeVector,",
  "                              const in vec3 materialAmbient,",
  "                              const in vec3 materialDiffuse,",
  "                              const in vec3 materialSpecular,",
  "                              const in float materialShininess,",
  "                              const in vec3 lightAmbient,",
  "                              const in vec3 lightDiffuse,",
  "                              const in vec3 lightSpecular,",
  "                              const in vec4 lightPosition,",
  "                              const in vec4 lightAttenuation,",
  "                              const in mat4 lightMatrix,",
  "                              out vec3 eyeLightPos,",
  "                              out vec3 eyeLightDir,",
  "                              out float NdotL,",
  "                              out bool lighted) \x7b",
  "    eyeLightPos = vec3(lightMatrix * lightPosition);",
  "    eyeLightDir = eyeLightPos - vViewVertex.xyz;",
  "    float dist = length(eyeLightDir);",
  "    eyeLightDir = dist > 0.0 ? eyeLightDir / dist : eyeLightDir;",
  "",
  "    NdotL = dot(normal, eyeLightDir);",
  "    lighted = NdotL > 0.0;",
  "    if (!lighted) \x7b",
  "        return vec3(0.0);",
  "    \x7d",
  "",
  "    float attenuation = getLightAttenuation(dist, lightAttenuation);",
  "    return attenuation * computeLightContribution(materialDiffuse, materialSpecular, materialShininess,",
  "                                                  lightDiffuse, lightSpecular,",
  "                                                  normal, eyeVector, eyeLightDir, NdotL);",
  "\x7d",
  "",
  "vec3 computeSpotLightShading(const in vec3 normal,",
  "                             const in vec3 eyeVector,",
  "                             const in vec3 materialAmbient,",
  "                             const in vec3 materialDiffuse,",
  "                             const in vec3 materialSpecular,",
  "                             const in float materialShininess,",
  "                             const in vec3 lightAmbient,",
  "                             const in vec3 lightDiffuse,",
  "                             const in vec3 lightSpecular,",
  "                             const in vec3 lightSpotDirection,",
  "                             const in vec4 lightAttenuation,",
  "                             const in vec4 lightPosition,",
  "                             const in float lightCosSpotCutOff,",
  "                             const in float lightSpotBlend,",
  "                             const in mat4 lightMatrix,",
  "                             const in mat4 lightInvMatrix,",
  "                             out vec3 eyeLightPos,",
  "                             out vec3 eyeLightDir,",
  "                             out float NdotL,",
  "                             out bool lighted) \x7b",
  "    eyeLightPos = vec3(lightMatrix * lightPosition);",
  "    eyeLightDir = eyeLightPos - vViewVertex.xyz;",
  "    float dist = length(eyeLightDir);",
  "    eyeLightDir = dist > 0.0 ? eyeLightDir / dist : eyeLightDir;",
  "",
  "    NdotL = dot(normal, eyeLightDir);",
  "    vec3 spotDirection = normalize(vec3(lightInvMatrix * vec4(lightSpotDirection, 0.0)));",
  "    float cosCurAngle = dot(-eyeLightDir, spotDirection);",
  "",
  "    lighted = NdotL > 0.0 && cosCurAngle >= lightCosSpotCutOff;",
  "    if (!lighted) \x7b",
  "        return vec3(0.0);",
  "    \x7d",
  "",
  "    float spot = smoothstep(lightCosSpotCutOff, lightCosSpotCutOff + lightSpotBlend, cosCurAngle);",
  "    float attenuation = getLightAttenuation(dist, lightAttenuation) * spot;",
  "    return attenuation * computeLightContribution(materialDiffuse, materialSpecular, materialShininess,",
  "                                                  lightDiffuse, lightSpecular,",
  "                                                  normal, eyeVector, eyeLightDir, NdotL);",
  "\x7d",
  "",
  "vec3 computeSunLightShading(const in vec3 normal,",
  "                            const in vec3 eyeVector,",
  "                            const in vec3 materialAmbient,",
  "                            const in vec3 materialDiffuse,",
  "                            const in vec3 materialSpecular,",
  "                            const in float materialShininess,",
  "                            const in vec3 lightAmbient,",
  "                            const in vec3 lightDiffuse,",
  "                            const in vec3 lightSpecular,",
  "                            const in vec4 lightPosition,",
  "                            const in mat4 lightMatrix,",
  "                            out vec3 eyeLightDir,",
  "                            out float NdotL,",
  "                            out bool lighted) \x7b",
  "    eyeLightDir = normalize(vec3(lightMatrix * vec4(lightPosition.xyz, 0.0)));",
  "",
  "    NdotL = dot(normal, eyeLightDir);",
  "    lighted = NdotL > 0.0;",
  "    if (!lighted) \x7b",
  "        return vec3(0.0);",
  "    \x7d",
  "",
  "    return computeLightContribution(materialDiffuse, materialSpecular, materialShininess,",
  "                                    lightDiffuse, lightSpecular,",
  "                                    normal, eyeVector, eyeLightDir, NdotL);",
  "\x7d",
  "",
  "vec3 computeHemiLightShading(const in vec3 normal,",
  "                             const in vec3 eyeVector,",
  "                             const in vec3 materialDiffuse,",
  "                             const in vec3 materialSpecular,",
  "                             const in float materialShininess,",
  "                             const in vec3 lightDiffuse,",
  "                             const in vec3 lightGround,",
  "                             const in vec4 lightPosition,",
  "                             const in mat4 lightMatrix,",
  "                             out vec3 eyeLightDir,",
  "                             out float NdotL,",
  "                             out bool lighted) \x7b",
  "    eyeLightDir = normalize(vec3(lightMatrix * vec4(lightPosition.xyz, 0.0)));",
  "",
  "    NdotL = dot(normal, eyeLightDir);",
  "    float weight = 0.5 * NdotL + 0.5;",
  "    vec3 diffuse = materialDiffuse * mix(lightGround, lightDiffuse, weight);",
  "",
  "    vec3 halfVector = normalize(eyeLightDir + eyeVector);",
  "    float NdotH = 0.5 * dot(normal, halfVector) + 0.5;",
  "    vec3 specular = materialSpecular * lightDiffuse * pow(NdotH, materialShininess);",
  "",
  "    lighted = true;",
  "    return diffuse + specular;",
  "\x7d"]

/-- The skeleton of every program: version, extensions, default precision, definitions and body. -/
def skeleton : String := ofLines [
  "#version \x7b\x7b version \x7d\x7d",
  "$$ for extension in extensions",
  "\x7b\x7b extension \x7d\x7d",
  "$$ endfor",
  "$$ if precision",
  "\x7b\x7b precision \x7d\x7d",
  "$$ endif",
  "$$ for define in defines",
  "\x7b\x7b define \x7d\x7d",
  "$$ endfor",
  "\x7b\x7b body \x7d\x7d"]

/-- The depth pass of a shadow map. -/
def shadowsCast : String := ofLines [
  "// Shadow map output for the casting pass.",
  "",
  "#pragma include \"shadowsCommon.glsl\"",
  "",
  "vec4 computeShadowDepth(const in vec4 fragEye,",
  "                        const in vec4 depthRange",
  "#if defined(_ESM) || defined(_VSM) || defined(_EVSM)",
  "                        , const in float exponent0",
  "                        , const in float exponent1",
  "#endif",
  "    ) \x7b",
  "    float depth = (-fragEye.z - depthRange.x) * depthRange.w;",
  "",
  "#if defined(_EVSM)",
  "    vec2 warped = vec2(exp(exponent0 * depth), -exp(-exponent1 * depth));",
  "    return vec4(warped.x, warped.y, warped.x * warped.x, warped.y * warped.y);",
  "#elif defined(_VSM)",
  "    vec2 moments = vec2(depth, depth * depth);",
  "#ifdef _FLOATTEX",
  "    return vec4(moments, 0.0, 1.0);",
  "#else",
  "    return encodeHalfFloatRGBA(moments);",
  "#endif",
  "#else",
  "#ifdef _FLOATTEX",
  "    return vec4(depth, 0.0, 0.0, 1.0);",
  "#else",
  "    return encodeFloatRGBA(depth);",
  "#endif",
  "#endif",
  "\x7d"]

/-- Packing of depths, shared by both sides of a shadow map. -/
def shadowsCommon : String := ofLines [
  "// Depth packing shared by casting and receiving.",
  "",
  "vec4 encodeFloatRGBA(float value) \x7b",
  "    vec4 enc = vec4(1.0, 255.0, 65025.0, 16581375.0) * value;",
  "    enc = fract(enc);",
  "    enc -= enc.yzww * vec4(1.0 / 255.0, 1.0 / 255.0, 1.0 / 255.0, 0.0);",
  "    return enc;",
  "\x7d",
  "",
  "float decodeFloatRGBA(vec4 rgba) \x7b",
  "    return dot(rgba, vec4(1.0, 1.0 / 255.0, 1.0 / 65025.0, 1.0 / 16581375.0));",
  "\x7d",
  "",
  "vec4 encodeHalfFloatRGBA(vec2 v) \x7b",
  "    const vec2 bias = vec2(1.0 / 255.0, 0.0);",
  "    vec4 enc;",
  "    enc.xy = vec2(v.x, fract(v.x * 255.0));",
  "    enc.xy = enc.xy - (enc.yy * bias);",
  "    enc.zw = vec2(v.y, fract(v.y * 255.0));",
  "    enc.zw = enc.zw - (enc.ww * bias);",
  "    return enc;",
  "\x7d",
  "",
  "vec2 decodeHalfFloatRGBA(vec4 rgba) \x7b",
  "    return vec2(rgba.x + (rgba.y / 255.0), rgba.z + (rgba.w / 255.0));",
  "\x7d",
  "",
  "float getShadowDepth(const in sampler2D depths, const in vec2 uv) \x7b",
  "#ifdef _FLOATTEX",
  "    return texture2D(depths, uv).x;",
  "#else",
  "    return decodeFloatRGBA(texture2D(depths, uv));",
  "#endif",
  "\x7d",
  "",
  "vec2 getShadowMoments(const in sampler2D depths, const in vec2 uv) \x7b",
  "#ifdef _FLOATTEX",
  "    return texture2D(depths, uv).xy;",
  "#else",
  "    return decodeHalfFloatRGBA(texture2D(depths, uv));",
  "#endif",
  "\x7d"]

/-- Percentage closer filtering. -/
def shadowsPcf : String := ofLines [
  "// Percentage closer filtering over a square kernel.",
  "",
  "#ifdef _PCFx25",
  "#define PCF_RADIUS 2",
  "#elif defined(_PCFx16) || defined(_PCFx9)",
  "#define PCF_RADIUS 1",
  "#else",
  "#define PCF_RADIUS 0",
  "#endif",
  "",
  "float texture2DCompare(const in sampler2D depths, const in vec2 uv, const in float compare) \x7b",
  "    return step(compare, getShadowDepth(depths, uv));",
  "\x7d",
  "",
  "float texture2DShadowLerp(const in sampler2D depths, const in vec2 size, const in vec2 uv, const in float compare) \x7b",
  "#ifdef _FAKE_PCF",
  "    return texture2DCompare(depths, uv, compare);",
  "#else",
  "    vec2 texelSize = vec2(1.0) / size;",
  "    vec2 f = fract(uv * size + 0.5);",
  "    vec2 centroidUV = floor(uv * size + 0.5) / size;",
  "",
  "    float lb = texture2DCompare(depths, centroidUV + texelSize * vec2(0.0, 0.0), compare);",
  "    float lt = texture2DCompare(depths, centroidUV + texelSize * vec2(0.0, 1.0), compare);",
  "    float rb = texture2DCompare(depths, centroidUV + texelSize * vec2(1.0, 0.0), compare);",
  "    float rt = texture2DCompare(depths, centroidUV + texelSize * vec2(1.0, 1.0), compare);",
  "    float a = mix(lb, lt, f.y);",
  "    float b = mix(rb, rt, f.y);",
  "    return mix(a, b, f.x);",
  "#endif",
  "\x7d",
  "",
  "float getShadowPCF(const in sampler2D depths, const in vec4 size, const in vec2 uv, const in float compare) \x7b",
  "    float result = 0.0;",
  "    float count = 0.0;",
  "    for (int x = -PCF_RADIUS; x <= PCF_RADIUS; x++) \x7b",
  "        for (int y = -PCF_RADIUS; y <= PCF_RADIUS; y++) \x7b",
  "            vec2 offset = vec2(float(x), float(y)) * size.zw;",
  "#ifdef _ROTATE_OFFSET",
  "            offset = vec2(offset.x - offset.y, offset.x + offset.y) * 0.7071;",
  "#endif",
  "            result += texture2DShadowLerp(depths, size.xy, uv + offset, compare);",
  "            count += 1.0;",
  "        \x7d",
  "    \x7d",
  "    return result / count;",
  "\x7d"]

/-- Shadows that a surface receives. -/
def shadowsReceive : String := ofLines [
  "// Shadow lookup. Returns 1.0 when lit, 0.0 when fully shadowed.",
  "",
  "#pragma include \"shadowsCommon.glsl\"",
  "#pragma include \"shadowsPCF.glsl\" \"_PCF\"",
  "",
  "float chebyshevUpperBound(const in vec2 moments, const in float mean, const in float bias, const in float minVariance) \x7b",
  "    float variance = max(moments.y - (moments.x * moments.x), minVariance);",
  "    float d = mean - moments.x;",
  "    float pMax = variance / (variance + d * d);",
  "    return mean <= moments.x + bias ? 1.0 : pMax;",
  "\x7d",
  "",
  "float computeShadow(const in bool lighted,",
  "                    const in sampler2D tex,",
  "                    const in vec4 shadowMapSize,",
  "                    const in mat4 shadowProjectionMatrix,",
  "                    const in mat4 shadowViewMatrix,",
  "                    const in vec4 depthRange,",
  "                    const in float N_Dot_L,",
  "                    const in vec3 vertexWorld,",
  "                    const in float bias",
  "#if defined(_ESM)",
  "                    , const in float exponent0",
  "                    , const in float exponent1",
  "#elif defined(_EVSM)",
  "                    , const in float epsilonVSM",
  "                    , const in float exponent0",
  "                    , const in float exponent1",
  "#elif defined(_VSM)",
  "                    , const in float epsilonVSM",
  "#endif",
  "    ) \x7b",
  "    if (!lighted) \x7b",
  "        return 1.0;",
  "    \x7d",
  "    if (depthRange.x == depthRange.y) \x7b",
  "        return 1.0;",
  "    \x7d",
  "",
  "    vec4 shadowVertexEye = shadowViewMatrix * vec4(vertexWorld, 1.0);",
  "    float shadowReceiverZ = (-shadowVertexEye.z - depthRange.x) * depthRange.w;",
  "    if (shadowReceiverZ < 0.0 || shadowReceiverZ > 1.0) \x7b",
  "        return 1.0;",
  "    \x7d",
  "",
  "    vec4 shadowVertexProjected = shadowProjectionMatrix * shadowVertexEye;",
  "    if (shadowVertexProjected.w == 0.0) \x7b",
  "        return 1.0;",
  "    \x7d",
  "    vec2 shadowUV = (shadowVertexProjected.xy / shadowVertexProjected.w) * 0.5 + 0.5;",
  "    if (any(bvec4(shadowUV.x > 1.0, shadowUV.x < 0.0, shadowUV.y > 1.0, shadowUV.y < 0.0))) \x7b",
  "        return 1.0;",
  "    \x7d",
  "",
  "    // slope scaled bias",
  "    float depthBias = clamp(bias * tan(acos(clamp(N_Dot_L, 0.0, 1.0))), 0.0, 2.0 * bias);",
  "    shadowReceiverZ -= depthBias;",
  "",
  "#if defined(_PCF)",
  "    return getShadowPCF(tex, shadowMapSize, shadowUV, shadowReceiverZ);",
  "#elif defined(_ESM)",
  "    float occluder = getShadowDepth(tex, shadowUV);",
  "    return clamp(exp(-exponent0 * (shadowReceiverZ - occluder)), 0.0, 1.0);",
  "#elif defined(_VSM)",
  "    vec2 moments = getShadowMoments(tex, shadowUV);",
  "    return chebyshevUpperBound(moments, shadowReceiverZ, bias, epsilonVSM);",
  "#elif defined(_EVSM)",
  "    vec2 warped = vec2(exp(exponent0 * shadowReceiverZ), -exp(-exponent1 * shadowReceiverZ));",
  "    vec4 occluder = texture2D(tex, shadowUV);",
  "    float positive = chebyshevUpperBound(occluder.xz, warped.x, bias, epsilonVSM);",
  "    float negative = chebyshevUpperBound(occluder.yw, warped.y, bias, epsilonVSM);",
  "    return min(positive, negative);",
  "#else",
  "    return step(shadowReceiverZ, getShadowDepth(tex, shadowUV));",
  "#endif",
  "\x7d"]

/-- Bone matrices from a palette. -/
def skinning : String := ofLines [
  "// uBones stores three vec4 rows of an affine matrix per bone. The returned",
  "// matrix multiplies on the right of the vertex.",
  "",
  "mat4 getBoneMatrix(const in float boneIndex) \x7b",
  "    int index = int(boneIndex) * 3;",
  "    return mat4(uBones[index], uBones[index + 1], uBones[index + 2], vec4(0.0, 0.0, 0.0, 1.0));",
  "\x7d",
  "",
  "mat4 skeletalTransform(const in vec4 weightsVec, const in vec4 bonesIdx) \x7b",
  "    mat4 transform = mat4(0.0);",
  "",
  "    if (weightsVec.x > 0.0) transform += getBoneMatrix(bonesIdx.x) * weightsVec.x;",
  "    if (weightsVec.y > 0.0) transform += getBoneMatrix(bonesIdx.y) * weightsVec.y;",
  "    if (weightsVec.z > 0.0) transform += getBoneMatrix(bonesIdx.z) * weightsVec.z;",
  "    if (weightsVec.w > 0.0) transform += getBoneMatrix(bonesIdx.w) * weightsVec.w;",
  "",
  "    return transform;",
  "\x7d"]

/-- Texture reads. -/
def textures : String := ofLines [
  "vec4 textureRGBA(const in sampler2D texture, const in vec2 uv) \x7b",
  "    return texture2D(texture, uv.xy);",
  "\x7d",
  "",
  "vec3 textureRGB(const in sampler2D texture, const in vec2 uv) \x7b",
  "    return texture2D(texture, uv.xy).rgb;",
  "\x7d",
  "",
  "float textureIntensity(const in sampler2D texture, const in vec2 uv) \x7b",
  "    return texture2D(texture, uv).r;",
  "\x7d",
  "",
  "float textureAlpha(const in sampler2D texture, const in vec2 uv) \x7b",
  "    return texture2D(texture, uv.xy).a;",
  "\x7d"]

/-- The files of the library by name. -/
def files : List (String × String) := [
  ("billboard.glsl", billboard),
  ("functions.glsl", functions),
  ("lights.glsl", lights),
  ("program.glsl", skeleton),
  ("shadowsCastFrag.glsl", shadowsCast),
  ("shadowsCommon.glsl", shadowsCommon),
  ("shadowsPCF.glsl", shadowsPcf),
  ("shadowsReceive.glsl", shadowsReceive),
  ("skinning.glsl", skinning),
  ("textures.glsl", textures)]

end SceneShading.Source.Builtin
